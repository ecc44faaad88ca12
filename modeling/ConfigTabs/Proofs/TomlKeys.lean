import Mathlib.Tactic.SplitIfs
import ConfigTabs.Toml.Document
import ConfigTabs.Proofs.Render
/-!
A table of a parsed TOML document names each of its keys once, since every step that edits a
table keeps its names distinct.
-/
namespace ConfigTabs.Toml

def keyNames (es : Entries) : List String := es.map (·.1.name)

@[simp] theorem keyNames_nil : keyNames [] = [] := rfl

@[simp] theorem keyNames_append (es fs : Entries) :
    keyNames (es ++ fs) = keyNames es ++ keyNames fs := by
  simp [keyNames]

@[simp] theorem keyNames_singleton (k : Key) (n : Node) : keyNames [(k, n)] = [k.name] := rfl

namespace Entries

@[simp] theorem keyNames_update (es : Entries) (name : String) (n : Node) :
    keyNames (es.update name n) = keyNames es := by
  simp only [keyNames, update, List.map_map]
  congr 1
  funext e
  simp only [Function.comp_apply]
  split <;> rfl

theorem find?_eq_none_iff {es : Entries} {name : String} :
    es.find? name = none ↔ name ∉ keyNames es := by
  simp [find?, keyNames]

theorem find?_cons {k : Key} {v : Node} {rest : Entries} {name : String} :
    Entries.find? ((k, v) :: rest) name = if k.name = name then some v else Entries.find? rest name := by
  by_cases h : k.name = name <;> simp [find?, h]

theorem mem_of_find?_eq_some {es : Entries} {name : String} {n : Node} (h : es.find? name = some n) :
    ∃ e ∈ es, e.2 = n := by
  obtain ⟨e, he, rfl⟩ := Option.map_eq_some_iff.mp h
  exact ⟨e, List.mem_of_find?_eq_some he, rfl⟩

theorem mem_update {es : Entries} {name : String} {n : Node} {e : Key × Node}
    (h : e ∈ es.update name n) : e ∈ es ∨ e.2 = n := by
  obtain ⟨e', he', rfl⟩ := List.mem_map.mp h
  split
  · exact .inr rfl
  · exact .inl he'

theorem nodup_append_fresh {es : Entries} {k : Key} {n : Node} (h : (keyNames es).Nodup)
    (hk : es.find? k.name = none) : (keyNames (es ++ [(k, n)])).Nodup := by
  rw [keyNames_append, keyNames_singleton, List.nodup_append]
  have hfresh : k.name ∉ keyNames es := find?_eq_none_iff.mp hk
  refine ⟨h, by simp, fun a ha b hb hab => hfresh ?_⟩
  rw [List.mem_singleton.mp hb] at hab
  exact hab ▸ ha

end Entries

def Node.OwnKeysOnce : Node → Prop
  | .table es _ _ _ | .inlineTable es _ _ => (keyNames es).Nodup
  | _ => True

structure KeysOnce (es : Entries) : Prop where
  nodup : (keyNames es).Nodup
  children : ∀ e ∈ es, e.2.OwnKeysOnce

theorem KeysOnce.nil : KeysOnce [] := ⟨List.nodup_nil, by simp⟩

theorem KeysOnce.ownKeysOnce_of_find? {es : Entries} {name : String} {n : Node} (h : KeysOnce es)
    (hn : es.find? name = some n) : n.OwnKeysOnce := by
  obtain ⟨e, he, rfl⟩ := Entries.mem_of_find?_eq_some hn
  exact h.children e he

/-- What one step of reading may do to a table: leave it, add a key it does not have at the end,
replace the node under a key, or remove a key. The nodes it puts in have property `P`. -/
inductive TableEdit (P : Node → Prop) (es : Entries) : Entries → Prop
  | keep : TableEdit P es es
  | add {k : Key} {n : Node} : es.find? k.name = none → P n → TableEdit P es (es ++ [(k, n)])
  | replace {name : String} {n : Node} : P n → TableEdit P es (es.update name n)
  | remove {name : String} : TableEdit P es (es.erase name)

namespace TableEdit

variable {P Q : Node → Prop} {es r : Entries}

theorem mono (h : TableEdit P es r) (hPQ : ∀ n, P n → Q n) : TableEdit Q es r := by
  cases h with
  | keep => exact .keep
  | add hk hn => exact .add hk (hPQ _ hn)
  | replace hn => exact .replace (hPQ _ hn)
  | remove => exact .remove

theorem nodup (h : TableEdit P es r) (hes : (keyNames es).Nodup) : (keyNames r).Nodup := by
  cases h with
  | keep => exact hes
  | add hk => exact Entries.nodup_append_fresh hes hk
  | replace => simpa using hes
  | remove => exact (List.filter_sublist.map _).nodup hes

theorem keysOnce (h : TableEdit Node.OwnKeysOnce es r) (hes : KeysOnce es) : KeysOnce r := by
  refine ⟨h.nodup hes.nodup, ?_⟩
  cases h with
  | keep => exact hes.children
  | add hk hn =>
    intro e he
    rcases List.mem_append.mp he with he | he
    · exact hes.children e he
    · rw [List.mem_singleton.mp he]
      exact hn
  | replace hn =>
    intro e he
    rcases Entries.mem_update he with he | he
    · exact hes.children e he
    · exact he ▸ hn
  | remove => exact fun e he => hes.children e (List.mem_filter.mp he).1

end TableEdit

/-! ### Walking down a dotted path -/

section Descend

variable {α : Type} {P : Node → Prop} {dotted : Bool} {full : List Key}
  {f : Entries → Bool → Except Clash (Entries × α)} {i : Nat} {path : List Key} {es : Entries}
  {d : Bool} {r : Entries} {a : α}

theorem descend_nodup (hf : ∀ es d r a, f es d = .ok (r, a) → TableEdit P es r)
    (h : descend dotted full f i path es d = .ok (r, a)) (hes : (keyNames es).Nodup) :
    (keyNames r).Nodup := by
  cases path with
  | nil => exact (hf _ _ _ _ h).nodup hes
  | cons k ks =>
    unfold descend at h
    split at h
    · obtain ⟨⟨sub, b⟩, -, h⟩ := exists_of_bind_eq_ok h
      cases h
      exact Entries.nodup_append_fresh hes ‹_›
    · obtain ⟨⟨sub, b⟩, -, h⟩ := exists_of_bind_eq_ok h
      cases h
      simpa using hes
    · split at h
      · obtain ⟨⟨sub, b⟩, -, h⟩ := exists_of_bind_eq_ok h
        cases h
        simpa using hes
      · cases h
    · cases h

theorem descend_keysOnce (hf : ∀ es d r a, f es d = .ok (r, a) → TableEdit P es r)
    (hP : path = [] → ∀ n, P n → n.OwnKeysOnce)
    (h : descend dotted full f i path es d = .ok (r, a)) (hes : KeysOnce es) : KeysOnce r := by
  cases path with
  | nil => exact ((hf _ _ _ _ h).mono (hP rfl)).keysOnce hes
  | cons k ks =>
    unfold descend at h
    split at h
    · rename_i hnone
      obtain ⟨⟨sub, b⟩, hsub, h⟩ := exists_of_bind_eq_ok h
      cases h
      exact TableEdit.keysOnce (.add hnone (descend_nodup hf hsub List.nodup_nil)) hes
    · rename_i sub imp dot sp hsome
      obtain ⟨⟨sub', b⟩, hsub, h⟩ := exists_of_bind_eq_ok h
      cases h
      have hown : (keyNames sub).Nodup := hes.ownKeysOnce_of_find? hsome
      exact TableEdit.keysOnce (.replace (descend_nodup hf hsub hown)) hes
    · -- a table array is replaced whole, and it has no keys of its own
      split at h
      · obtain ⟨⟨sub, b⟩, -, h⟩ := exists_of_bind_eq_ok h
        cases h
        exact TableEdit.keysOnce (.replace trivial) hes
      · cases h
    · cases h

theorem descend_preserves (hf : ∀ es d r a, f es d = .ok (r, a) → TableEdit P es r)
    (h : descend dotted full f i path es d = .ok (r, a)) :
    ((keyNames es).Nodup → (keyNames r).Nodup) ∧
      ((path = [] → ∀ n, P n → n.OwnKeysOnce) → KeysOnce es → KeysOnce r) :=
  ⟨descend_nodup hf h, fun hP => descend_keysOnce hf hP h⟩

theorem descendInline_nodup {f : Entries → Bool → Except Clash (Entries × α)}
    (hf : ∀ es d r a, f es d = .ok (r, a) → TableEdit P es r)
    (h : descendInline full f i path es d = .ok (r, a)) (hes : (keyNames es).Nodup) :
    (keyNames r).Nodup := by
  cases path with
  | nil => exact (hf _ _ _ _ h).nodup hes
  | cons k ks =>
    unfold descendInline at h
    split at h
    · obtain ⟨⟨sub, b⟩, -, h⟩ := exists_of_bind_eq_ok h
      cases h
      exact Entries.nodup_append_fresh hes ‹_›
    · obtain ⟨⟨sub, b⟩, -, h⟩ := exists_of_bind_eq_ok h
      cases h
      simpa using hes
    · cases h

end Descend

/-! ### Values -/

theorem tableFromPairs_nodup :
    ∀ {kvs : List (List Key × Key × Node)} {es r : Entries}, tableFromPairs kvs es = .ok r →
      (keyNames es).Nodup → (keyNames r).Nodup := by
  intro kvs
  induction kvs with
  | nil =>
    intro es r h hes
    cases h
    exact hes
  | cons kv kvs ih =>
    obtain ⟨path, key, v⟩ := kv
    intro es r h hes
    obtain ⟨es', hplace, hrest⟩ := exists_of_bind_eq_ok h
    refine ih hrest ?_
    obtain ⟨⟨es'', u⟩, hdesc, hplace⟩ := exists_of_bind_eq_ok hplace
    cases hplace
    refine descendInline_nodup (P := (· = v)) ?_ hdesc hes
    intro sub dotted r a hf
    dsimp only at hf
    -- the two refusals are thrown; what is left adds the key where it is not yet
    split_ifs at hf
    · cases hf
    · cases hf
    · cases hf
    · rename_i hfresh
      obtain ⟨rfl, -⟩ := Prod.mk.inj (Except.ok.inj hf)
      exact .add (by simpa using hfresh) rfl

def Step.Yields {α : Type} (P : α → Prop) (r : Step α) : Prop := ∀ a t, r = .ok a t → P a

namespace Step

variable {α : Type} {P : α → Prop}

theorem yields_fail (f : Failure) : Yields P (.fail f : Step α) := by
  intro a t h
  cases h

theorem Yields.ite {c : Prop} {_ : Decidable c} {r r' : Step α} (h : Yields P r) (h' : Yields P r') :
    Yields P (if c then r else r') := by
  split
  · exact h
  · exact h'

@[simp] theorem note_eq_ok {n : Note} {r : Step α} {a : α} {t : Src} :
    r.note n = .ok a t ↔ r = .ok a t := by
  cases r <;> simp [note]

@[simp] theorem notes_eq_ok {ns : List Note} {r : Step α} {a : α} {t : Src} :
    r.notes ns = .ok a t ↔ r = .ok a t := by
  cases r <;> simp [notes]

@[simp] theorem final_eq_ok {r : Step α} {a : α} {t : Src} :
    r.final = .ok a t ↔ r = .ok a t := by
  cases r <;> simp [final]

end Step

theorem spanned_eq_ok {α : Type} {s t : Src} {r : Step α} {mk : α → Span → Node} {n : Node}
    (h : spanned s r mk = .ok n t) : ∃ a, r = .ok a t ∧ n = mk a ⟨s.offset, t.offset⟩ := by
  unfold spanned Step.bind at h
  split at h
  · cases h
    exact ⟨_, rfl, rfl⟩
  · cases h

theorem spanned_ownKeysOnce {α : Type} {s t : Src} {r : Step α} {mk : α → Span → Node} {n : Node}
    (h : spanned s r mk = .ok n t) (hmk : ∀ a sp, (mk a sp).OwnKeysOnce) : n.OwnKeysOnce := by
  obtain ⟨a, -, rfl⟩ := spanned_eq_ok h
  exact hmk _ _

theorem word_eq_ok {w : List Char} {n m : Node} {s t : Src} (h : word w n s = .ok m t) : m = n := by
  unfold word at h
  split at h
  · cases h
    rfl
  · cases h

theorem numberLike_eq_ok {s t : Src} {n : Node} (h : numberLike s = .ok n t) :
    spanned s (dateTime s) .datetime = .ok n t ∨ spanned s (float s) .float = .ok n t ∨
      spanned s (integer s) .integer = .ok n t := by
  unfold numberLike at h
  split at h
  · split at h
    · cases h
    · split at h
      · split at h
        · cases h
        · exact .inr (.inr h)
      · exact .inr (.inl h)
  · exact .inl h

theorem inlineTable_eq_ok {fuel depth : Nat} {s t : Src} {n : Node}
    (h : inlineTable fuel depth s = .ok n t) :
    ∃ kvs es sp, tableFromPairs kvs [] = .ok es ∧ n = .inlineTable es false sp := by
  rw [inlineTable] at h
  dsimp only at h
  split at h
  · cases h
  · split at h
    · cases h
    · split at h
      · cases h
        exact ⟨_, _, _, ‹_›, rfl⟩
      · cases h

theorem array_eq_ok {fuel depth : Nat} {s t : Src} {n : Node} (h : array fuel depth s = .ok n t) :
    ∃ vs sp, n = .array vs sp := by
  rw [array] at h
  split at h
  · cases h
  · split at h
    · cases h
      exact ⟨_, _, rfl⟩
    · cases h

theorem value_ownKeysOnce (fuel depth : Nat) (s : Src) :
    Step.Yields Node.OwnKeysOnce (value fuel depth s) := by
  cases fuel with
  | zero =>
    rw [value]
    exact Step.yields_fail _
  | succ fuel =>
    rw [value]
    split
    · exact Step.yields_fail _
    -- one branch per first character; too deep a nesting, and no value at all, fail
    refine .ite ?string (.ite (.ite (Step.yields_fail _) ?array) (.ite (.ite (Step.yields_fail _) ?inline)
      (.ite ?number (.ite ?integer (.ite ?float
        (.ite ?yes (.ite ?no (.ite ?inf (.ite ?nan (Step.yields_fail _))))))))))
    all_goals intro n t h
    case string => exact spanned_ownKeysOnce h fun _ _ => trivial
    case array =>
      obtain ⟨vs, sp, rfl⟩ := array_eq_ok h
      trivial
    case inline =>
      obtain ⟨kvs, es, sp, hes, rfl⟩ := inlineTable_eq_ok h
      exact tableFromPairs_nodup hes List.nodup_nil
    case number =>
      rcases numberLike_eq_ok h with h | h | h <;> exact spanned_ownKeysOnce h fun _ _ => trivial
    case integer => exact spanned_ownKeysOnce (Step.note_eq_ok.mp h) fun _ _ => trivial
    case float => exact spanned_ownKeysOnce (Step.note_eq_ok.mp h) fun _ _ => trivial
    -- the words `true`, `false`, `inf` and `nan`, given the span they were read from
    all_goals
      obtain ⟨a, hword, rfl⟩ := spanned_eq_ok (by simpa using h)
      cases word_eq_ok hword
      trivial

theorem pairLine_ownKeysOnce {s t : Src} {ks : List Key} {v : Node} (h : pairLine s = .ok (ks, v) t) :
    v.OwnKeysOnce := by
  unfold pairLine at h
  split at h
  · cases h
  · split at h
    · cases h
    · split at h
      · cases h
      · rename_i hv
        split at h
        · cases h
        · cases h
          exact value_ownKeysOnce _ _ _ _ _ hv

/-! ### The document being assembled -/

namespace Layout

/-- What reading keeps true of the document being assembled: its closed tables name each key
once, as does each table directly under the top; the table being read names each key once while
it sits at most one header key deep, and before the first header it is the top table itself. -/
structure KeysOnce (st : Layout) : Prop where
  root : Toml.KeysOnce st.root
  current : st.path.length ≤ 1 → (keyNames st.current).Nodup
  top : st.path = [] → Toml.KeysOnce st.current

theorem keysOnce_of_root {root : Entries} (h : Toml.KeysOnce root) : KeysOnce { root } :=
  ⟨h, fun _ => List.nodup_nil, fun _ => Toml.KeysOnce.nil⟩

theorem finalize_keysOnce {st st' : Layout} (hst : st.KeysOnce) (h : st.finalize = .ok st') :
    st'.KeysOnce := by
  unfold finalize at h
  split at h
  · rename_i hlast
    cases h
    exact keysOnce_of_root (hst.top (List.getLast?_eq_none_iff.mp hlast))
  · rename_i parent key hlast
    obtain ⟨⟨root, u⟩, hdesc, h⟩ := exists_of_bind_eq_ok h
    cases h
    refine keysOnce_of_root (descend_keysOnce
      (P := fun n => (keyNames st.current).Nodup → n.OwnKeysOnce) ?_ ?_ hdesc hst.root)
    · -- the closed table goes in at the end, over an implicit table, or onto its array
      intro es d r a hf
      split at hf
      · split at hf <;> cases hf
        · exact .add ‹_› fun _ => trivial
        · exact .add ‹_› id
      · split at hf
        · cases hf
          exact .replace fun _ => trivial
        · cases hf
      · split at hf
        · cases hf
        · cases hf
          exact .replace id
      · cases hf
    · -- a one-key header closes a table directly under the top, read with distinct keys
      intro hparent n hn
      apply hn
      apply hst.current
      have hlen := congrArg List.length hparent
      rw [List.length_dropLast, List.length_nil] at hlen
      omega

theorem openTable_keysOnce {st st' : Layout} {path : List Key} {span : Span} (hst : st.KeysOnce)
    (h : st.openTable path span = .ok st') : st'.KeysOnce := by
  unfold openTable at h
  obtain ⟨st1, hfin, h⟩ := exists_of_bind_eq_ok h
  have h1 := finalize_keysOnce hst hfin
  split at h
  · cases h
    exact h1
  · rename_i key hlast
    have hpath : path ≠ [] := fun hp => by simp [hp] at hlast
    obtain ⟨⟨root, current⟩, hdesc, h⟩ := exists_of_bind_eq_ok h
    cases h
    by_cases hparent : path.dropLast = []
    · -- a one-key header finds nothing, or takes over an implicit table and its keys
      rw [hparent, descend] at hdesc
      split at hdesc
      · cases hdesc
        exact ⟨h1.root, fun _ => List.nodup_nil, fun hp => absurd hp hpath⟩
      · rename_i sub hsome
        cases hdesc
        exact ⟨TableEdit.remove.keysOnce h1.root, fun _ => h1.root.ownKeysOnce_of_find? hsome,
          fun hp => absurd hp hpath⟩
      · cases hdesc
    · have hroot : Toml.KeysOnce root := by
        refine descend_keysOnce (P := fun _ => False) ?_ (fun hp => absurd hp hparent) hdesc h1.root
        intro es d r a hf
        split at hf
        · cases hf
          exact .keep
        · cases hf
          exact .remove
        · cases hf
      refine ⟨hroot, fun hlen => ?_, fun hp => absurd hp hpath⟩
      -- a longer header's table is never one the invariant speaks of
      have hlong : path.dropLast.length ≠ 0 := fun h0 => hparent (List.length_eq_zero_iff.mp h0)
      rw [List.length_dropLast] at hlong
      change path.length ≤ 1 at hlen
      omega

theorem openArrayTable_keysOnce {st st' : Layout} {path : List Key} {span : Span}
    (hst : st.KeysOnce) (h : st.openArrayTable path span = .ok st') : st'.KeysOnce := by
  unfold openArrayTable at h
  obtain ⟨st1, hfin, h⟩ := exists_of_bind_eq_ok h
  have h1 := finalize_keysOnce hst hfin
  split at h
  · cases h
    exact h1
  · obtain ⟨⟨root, u⟩, hdesc, h⟩ := exists_of_bind_eq_ok h
    cases h
    have hroot : Toml.KeysOnce root := by
      refine descend_keysOnce (P := Node.OwnKeysOnce) ?_ (fun _ _ hn => hn) hdesc h1.root
      intro es d r a hf
      split at hf
      · cases hf
        exact .add ‹_› trivial
      · cases hf
        exact .keep
      · cases hf
    exact ⟨hroot, fun _ => List.nodup_nil, fun _ => Toml.KeysOnce.nil⟩

theorem addPair_keysOnce {st st' : Layout} {path : List Key} {key : Key} {v : Node}
    (hst : st.KeysOnce) (hv : v.OwnKeysOnce) (h : st.addPair path key v = .ok st') :
    st'.KeysOnce := by
  unfold addPair at h
  obtain ⟨⟨current, u⟩, hdesc, h⟩ := exists_of_bind_eq_ok h
  cases h
  refine (descend_preserves (P := (· = v)) ?_ hdesc).elim fun hnodup hkeys => ?_
  · -- the pair is added at the end of the table its dotted path leads to, where its key is not yet
    intro es d r a hf
    dsimp only at hf
    split_ifs at hf
    · cases hf
    · cases hf
    · cases hf
    · rename_i hfresh
      obtain ⟨rfl, -⟩ := Prod.mk.inj (Except.ok.inj hf)
      exact .add (by simpa using hfresh) rfl
  · exact ⟨hst.root, fun hp => hnodup (hst.current hp),
      fun hp => hkeys (fun _ n hn => hn ▸ hv) (hst.top hp)⟩

end Layout

theorem lines_keysOnce : ∀ {fuel : Nat} {s : Src} {st st' : Layout}, st.KeysOnce →
    lines fuel s st = .ok st' → st'.KeysOnce := by
  intro fuel
  induction fuel with
  | zero =>
    intro s st st' hst h
    cases h
    exact hst
  | succ fuel ih =>
    intro s st st' hst h
    rw [lines] at h
    split at h
    · -- the end of the text
      cases h
      exact hst
    · -- a comment line
      split at h
      · exact ih hst h
      · cases h
    · -- a header line opens a table or the next table of an array
      split at h
      · cases h
      · rename_i isArray ks sp t hheader
        generalize hopened : (if isArray = true then st.openArrayTable ks sp
          else st.openTable ks sp) = opened at h
        dsimp only at h
        split at h
        · cases h
        · rename_i st1
          have hst1 : st1.KeysOnce := by
            split at hopened
            · exact Layout.openArrayTable_keysOnce hst hopened
            · exact Layout.openTable_keysOnce hst hopened
          exact ih hst1 h
    · -- a blank line, ended by a line feed or a carriage return
      split at h
      · exact ih hst h
      · cases h
    · split at h
      · exact ih hst h
      · cases h
    · -- a key/value line
      split at h
      · cases h
      · split at h
        · cases h
        · rename_i hpair _ _ hadd
          exact ih (Layout.addPair_keysOnce hst (pairLine_ownKeysOnce hpair) hadd) h

theorem parseDocument_keysOnce {text : String} {root : Entries} (h : parseDocument text = .ok root) :
    KeysOnce root := by
  unfold parseDocument at h
  dsimp only at h
  split at h
  · cases h
  · rename_i st hlines
    split at h
    · cases h
    · rename_i st' hfin
      cases h
      have hst := lines_keysOnce (Layout.keysOnce_of_root KeysOnce.nil) hlines
      exact (Layout.finalize_keysOnce hst hfin).root

end ConfigTabs.Toml
