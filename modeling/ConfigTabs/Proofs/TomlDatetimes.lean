import ConfigTabs.Snippet.Read
import ConfigTabs.Proofs.Blocks
import Mathlib.Data.List.Forall2
/-!
Dates and times in a TOML snippet are written as strings of their text, at any depth and in
place; each conversion has a pullback lemma.
-/
namespace ConfigTabs.Toml

open List

namespace Node

def children : Node → List Node
  | .array items _ => items
  | .tableArray ts _ => ts
  | .inlineTable es _ _ => es.map Prod.snd
  | .table es _ _ _ => es.map Prod.snd
  | _ => []

inductive Occurs (m : Node) : Node → Prop
  | here : Occurs m m
  | child {c n : Node} : c ∈ n.children → Occurs m c → Occurs m n

/-- No date and time occurs in the node, at any depth. -/
def Dateless (n : Node) : Prop := ∀ d sp, ¬ Occurs (.datetime d sp) n

theorem Dateless.of_child {c n : Node} (h : Dateless n) (hc : c ∈ n.children) : Dateless c :=
  fun d sp hd => h d sp (.child hc hd)

end Node

/-! ### Dates and times as text -/

theorem datetimesAsTextItems_eq_map (ns : List Node) :
    datetimesAsTextItems ns = ns.map datetimesAsText := by
  induction ns with
  | nil => rfl
  | cons n ns ih => rw [datetimesAsTextItems, ih, map_cons]

theorem datetimesAsTextEntries_eq_map (es : Entries) :
    datetimesAsTextEntries es = es.map fun e => (e.1, datetimesAsText e.2) := by
  induction es with
  | nil => rfl
  | cons e es ih =>
    obtain ⟨k, n⟩ := e
    rw [datetimesAsTextEntries, ih, map_cons]

theorem keys_datetimesAsTextEntries (es : Entries) :
    (datetimesAsTextEntries es).map Prod.fst = es.map Prod.fst := by
  rw [datetimesAsTextEntries_eq_map, map_map]
  rfl

theorem children_datetimesAsText (n : Node) :
    (datetimesAsText n).children = n.children.map datetimesAsText := by
  cases n with
  | array items sp | tableArray items sp =>
    rw [datetimesAsText, Node.children, Node.children, datetimesAsTextItems_eq_map]
  | inlineTable es dotted sp | table es implicit dotted sp =>
    rw [datetimesAsText, Node.children, Node.children, datetimesAsTextEntries_eq_map, map_map,
      map_map]
    rfl
  | _ => rfl

theorem datetimesAsText_ne_datetime (n : Node) (d : Datetime) (sp : Span) :
    datetimesAsText n ≠ .datetime d sp := by
  cases n <;> simp [datetimesAsText]

theorem occurs_datetimesAsText {m n : Node} (h : Node.Occurs m (datetimesAsText n)) :
    ∃ m₀, Node.Occurs m₀ n ∧ datetimesAsText m₀ = m := by
  generalize hn : datetimesAsText n = n' at h
  induction h generalizing n with
  | here => exact ⟨n, .here, hn⟩
  | child hc _ ih =>
    rw [← hn, children_datetimesAsText, mem_map] at hc
    obtain ⟨c₀, hc₀, rfl⟩ := hc
    obtain ⟨m₀, hm₀, rfl⟩ := ih rfl
    exact ⟨m₀, .child hc₀ hm₀, rfl⟩

theorem dateless_datetimesAsText (n : Node) : Node.Dateless (datetimesAsText n) := by
  intro d sp h
  obtain ⟨m₀, -, hm₀⟩ := occurs_datetimesAsText h
  exact datetimesAsText_ne_datetime m₀ d sp hm₀

mutual

theorem datetimesAsText_of_dateless : ∀ n : Node, Node.Dateless n → datetimesAsText n = n
  | .string .., _ | .integer .., _ | .float .., _ | .boolean .., _ => rfl
  | .datetime d sp, h => absurd .here (h d sp)
  | .array items _, h | .tableArray items _, h => by
    rw [datetimesAsText, datetimesAsTextItems_of_dateless items fun c hc => h.of_child hc]
  | .inlineTable es _ _, h | .table es _ _ _, h => by
    rw [datetimesAsText, datetimesAsTextEntries_of_dateless es fun e he =>
      h.of_child (mem_map_of_mem (f := Prod.snd) he)]

theorem datetimesAsTextItems_of_dateless :
    ∀ ns : List Node, (∀ n ∈ ns, Node.Dateless n) → datetimesAsTextItems ns = ns
  | [], _ => rfl
  | n :: ns, h => by
    rw [datetimesAsTextItems, datetimesAsText_of_dateless n (h n mem_cons_self),
      datetimesAsTextItems_of_dateless ns fun c hc => h c (mem_cons_of_mem n hc)]

theorem datetimesAsTextEntries_of_dateless :
    ∀ es : Entries, (∀ e ∈ es, Node.Dateless e.2) → datetimesAsTextEntries es = es
  | [], _ => rfl
  | (k, n) :: es, h => by
    rw [datetimesAsTextEntries, datetimesAsText_of_dateless n (h (k, n) mem_cons_self),
      datetimesAsTextEntries_of_dateless es fun e he => h e (mem_cons_of_mem _ he)]

end

/-! ### The same document with its dates and times quoted -/

namespace Node

/-- `m` says what `n` says, with some of its dates and times written as strings of their text:
the same kind of node, keys and items in the same order, the same scalars. Where a node was
written, and how a table came to be, are not compared. -/
inductive Restated : Node → Node → Prop
  | string {s : String} {sp sp' : Span} : Restated (.string s sp) (.string s sp')
  | integer {i : Int} {sp sp' : Span} : Restated (.integer i sp) (.integer i sp')
  | float {x : Binary64} {sp sp' : Span} : Restated (.float x sp) (.float x sp')
  | boolean {b : Bool} {sp sp' : Span} : Restated (.boolean b sp) (.boolean b sp')
  | datetime {d : Datetime} {sp sp' : Span} : Restated (.datetime d sp) (.datetime d sp')
  | asText {d : Datetime} {sp sp' : Span} : Restated (.datetime d sp) (.string d.text sp')
  | array {xs ys : List Node} {sp sp' : Span} (hlen : xs.length = ys.length)
      (hitems : ∀ p ∈ xs.zip ys, Restated p.1 p.2) : Restated (.array xs sp) (.array ys sp')
  | tableArray {xs ys : List Node} {sp sp' : Option Span} (hlen : xs.length = ys.length)
      (hitems : ∀ p ∈ xs.zip ys, Restated p.1 p.2) :
      Restated (.tableArray xs sp) (.tableArray ys sp')
  | inlineTable {es fs : Entries} {dotted dotted' : Bool} {sp sp' : Option Span}
      (hkeys : es.map (·.1.name) = fs.map (·.1.name))
      (hvalues : ∀ p ∈ es.zip fs, Restated p.1.2 p.2.2) :
      Restated (.inlineTable es dotted sp) (.inlineTable fs dotted' sp')
  | table {es fs : Entries} {implicit implicit' dotted dotted' : Bool} {sp sp' : Option Span}
      (hkeys : es.map (·.1.name) = fs.map (·.1.name))
      (hvalues : ∀ p ∈ es.zip fs, Restated p.1.2 p.2.2) :
      Restated (.table es implicit dotted sp) (.table fs implicit' dotted' sp')

end Node

def Entries.Restated (es fs : Entries) : Prop :=
  es.map (·.1.name) = fs.map (·.1.name) ∧ ∀ p ∈ es.zip fs, Node.Restated p.1.2 p.2.2

mutual

def Node.restates : Node → Node → Bool
  | .string s _, .string s' _ => s == s'
  | .integer i _, .integer j _ => i == j
  | .float x _, .float y _ => x == y
  | .boolean b _, .boolean c _ => b == c
  | .datetime d _, .datetime e _ => d == e
  | .datetime d _, .string s _ => d.text == s
  | .array xs _, .array ys _ => restatesItems xs ys
  | .tableArray xs _, .tableArray ys _ => restatesItems xs ys
  | .inlineTable es _ _, .inlineTable fs _ _ => restatesEntries es fs
  | .table es _ _ _, .table fs _ _ _ => restatesEntries es fs
  | _, _ => false

def restatesItems : List Node → List Node → Bool
  | [], [] => true
  | x :: xs, y :: ys => x.restates y && restatesItems xs ys
  | _, _ => false

def restatesEntries : Entries → Entries → Bool
  | [], [] => true
  | (k, x) :: es, (k', y) :: fs => k.name == k'.name && x.restates y && restatesEntries es fs
  | _, _ => false

end

theorem map_eq_map_iff_zip {α β γ : Type} {f : α → γ} {g : β → γ} {xs : List α}
    {ys : List β} :
    xs.map f = ys.map g ↔ xs.length = ys.length ∧ ∀ p ∈ xs.zip ys, f p.1 = g p.2 := by
  rw [← forall₂_eq_eq_eq, forall₂_map_left_iff, forall₂_map_right_iff, forall₂_iff_zip]
  constructor
  · rintro ⟨hlen, h⟩
    exact ⟨hlen, fun p hp => h hp⟩
  · rintro ⟨hlen, h⟩
    exact ⟨hlen, fun hp => h _ hp⟩

mutual

theorem restated_datetimesAsText : ∀ n : Node, Node.Restated n (datetimesAsText n)
  | .string .. => .string
  | .integer .. => .integer
  | .float .. => .float
  | .boolean .. => .boolean
  | .datetime .. => .asText
  | .array items _ =>
    .array (by rw [datetimesAsTextItems_eq_map, length_map]) (restated_datetimesAsTextItems items)
  | .tableArray ts _ =>
    .tableArray (by rw [datetimesAsTextItems_eq_map, length_map]) (restated_datetimesAsTextItems ts)
  | .inlineTable es _ _ =>
    .inlineTable (restated_datetimesAsTextEntries es).1 (restated_datetimesAsTextEntries es).2
  | .table es _ _ _ =>
    .table (restated_datetimesAsTextEntries es).1 (restated_datetimesAsTextEntries es).2

theorem restated_datetimesAsTextItems :
    ∀ ns : List Node, ∀ p ∈ ns.zip (datetimesAsTextItems ns), Node.Restated p.1 p.2
  | [] => fun _ hp => absurd hp not_mem_nil
  | n :: ns => by
    rw [datetimesAsTextItems, zip_cons_cons, forall_mem_cons]
    exact ⟨restated_datetimesAsText n, restated_datetimesAsTextItems ns⟩

theorem restated_datetimesAsTextEntries :
    ∀ es : Entries, Entries.Restated es (datetimesAsTextEntries es)
  | [] => ⟨rfl, fun _ hp => absurd hp not_mem_nil⟩
  | (k, n) :: es => by
    obtain ⟨hkeys, hvalues⟩ := restated_datetimesAsTextEntries es
    refine ⟨by rw [datetimesAsTextEntries, map_cons, map_cons, hkeys], ?_⟩
    rw [datetimesAsTextEntries, zip_cons_cons, forall_mem_cons]
    exact ⟨restated_datetimesAsText n, hvalues⟩

end

mutual

theorem Node.restated_of_restates : ∀ n m : Node, n.restates m = true → Node.Restated n m
  | .string .., m, h | .integer .., m, h | .float .., m, h | .boolean .., m, h
  | .datetime .., m, h => by
    -- scalars: the same kind with the same value, or a date and the string of its text
    cases m <;> simp only [Node.restates, beq_iff_eq, Bool.false_eq_true] at h
    all_goals
      subst h
      constructor
  | .array xs _, m, h => by
    cases m with
    | array ys _ =>
      obtain ⟨hlen, hitems⟩ := restated_of_restatesItems xs ys h
      exact .array hlen hitems
    | _ => simp [Node.restates] at h
  | .tableArray xs _, m, h => by
    cases m with
    | tableArray ys _ =>
      obtain ⟨hlen, hitems⟩ := restated_of_restatesItems xs ys h
      exact .tableArray hlen hitems
    | _ => simp [Node.restates] at h
  | .inlineTable es _ _, m, h => by
    cases m with
    | inlineTable fs _ _ =>
      obtain ⟨hkeys, hvalues⟩ := restated_of_restatesEntries es fs h
      exact .inlineTable hkeys hvalues
    | _ => simp [Node.restates] at h
  | .table es _ _ _, m, h => by
    cases m with
    | table fs _ _ _ =>
      obtain ⟨hkeys, hvalues⟩ := restated_of_restatesEntries es fs h
      exact .table hkeys hvalues
    | _ => simp [Node.restates] at h

theorem restated_of_restatesItems : ∀ xs ys : List Node, restatesItems xs ys = true →
    xs.length = ys.length ∧ ∀ p ∈ xs.zip ys, Node.Restated p.1 p.2
  | [], [], _ => ⟨rfl, fun _ hp => absurd hp not_mem_nil⟩
  | x :: xs, y :: ys, h => by
    simp only [restatesItems, Bool.and_eq_true] at h
    obtain ⟨hlen, hitems⟩ := restated_of_restatesItems xs ys h.2
    refine ⟨by simp [hlen], ?_⟩
    rw [zip_cons_cons, forall_mem_cons]
    exact ⟨Node.restated_of_restates x y h.1, hitems⟩
  | [], _ :: _, h | _ :: _, [], h => by simp [restatesItems] at h

theorem restated_of_restatesEntries : ∀ es fs : Entries, restatesEntries es fs = true →
    Entries.Restated es fs
  | [], [], _ => ⟨rfl, fun _ hp => absurd hp not_mem_nil⟩
  | (k, x) :: es, (k', y) :: fs, h => by
    simp only [restatesEntries, Bool.and_eq_true, beq_iff_eq] at h
    obtain ⟨⟨hk, hxy⟩, hrest⟩ := h
    obtain ⟨hkeys, hvalues⟩ := restated_of_restatesEntries es fs hrest
    refine ⟨by simp [hk, hkeys], ?_⟩
    rw [zip_cons_cons, forall_mem_cons]
    exact ⟨Node.restated_of_restates x y hxy, hvalues⟩
  | [], _ :: _, h | _ :: _, [], h => by simp [restatesEntries] at h

end

theorem plainItems_eq_map (ns : List Node) : plainItems ns = ns.map plain := by
  induction ns with
  | nil => rfl
  | cons n ns ih => rw [plainItems, ih, map_cons]

theorem plainEntries_eq_foldr (es : Entries) :
    plainEntries es =
      (es.map fun e => (e.1.name, plain e.2)).foldr (fun p acc => insertSorted p.1 p.2 acc) [] := by
  induction es with
  | nil => rfl
  | cons e es ih =>
    obtain ⟨k, n⟩ := e
    rw [plainEntries, ih, map_cons, foldr_cons]

theorem plainEntries_datetimesAsText_eq {es fs : Entries}
    (hkeys : es.map (·.1.name) = fs.map (·.1.name))
    (hvalues : ∀ p ∈ es.zip fs, plain (datetimesAsText p.1.2) = plain (datetimesAsText p.2.2)) :
    plainEntries (datetimesAsTextEntries es) = plainEntries (datetimesAsTextEntries fs) := by
  obtain ⟨hlen, hnames⟩ := map_eq_map_iff_zip.mp hkeys
  have hpairs :=
    (map_eq_map_iff_zip (f := fun e : Key × Node => (e.1.name, plain (datetimesAsText e.2)))
      (g := fun e : Key × Node => (e.1.name, plain (datetimesAsText e.2)))).mpr
      ⟨hlen, fun p hp => Prod.ext (hnames p hp) (hvalues p hp)⟩
  simp only [plainEntries_eq_foldr, datetimesAsTextEntries_eq_map, map_map, Function.comp_def,
    hpairs]

theorem plain_datetimesAsText_of_restated {n m : Node} (h : Node.Restated n m) :
    plain (datetimesAsText n) = plain (datetimesAsText m) := by
  induction h with
  | string | integer | float | boolean | datetime | asText => rfl
  | array hlen _ ih | tableArray hlen _ ih =>
    have hitems :=
      (map_eq_map_iff_zip (f := plain ∘ datetimesAsText) (g := plain ∘ datetimesAsText)).mpr
        ⟨hlen, ih⟩
    simp only [datetimesAsText, plain, plainItems_eq_map, datetimesAsTextItems_eq_map, map_map,
      hitems]
  | inlineTable hkeys _ ih | table hkeys _ ih =>
    simp only [datetimesAsText, plain]
    rw [plainEntries_datetimesAsText_eq hkeys ih]

theorem Entries.Restated.plainEntries_eq {es fs : Entries} (h : Entries.Restated es fs) :
    plainEntries (datetimesAsTextEntries es) = plainEntries (datetimesAsTextEntries fs) :=
  plainEntries_datetimesAsText_eq h.1 fun p hp => plain_datetimesAsText_of_restated (h.2 p hp)

/-! ### Errors of the snippet's shape -/

def Unplaced {α : Type} (r : Except TomlError α) : Prop := ∀ e, r = .error e → e.span = none

section Unplaced

variable {α β : Type}

theorem unplaced_ok (a : α) : Unplaced (.ok a : Except TomlError α) := fun _ h => by cases h

theorem unplaced_error {e : TomlError} (h : e.span = none) :
    Unplaced (.error e : Except TomlError α) := by
  intro e' he
  cases he
  exact h

theorem Unplaced.bind {r : Except TomlError α} {f : α → Except TomlError β} (hr : Unplaced r)
    (hf : ∀ a, Unplaced (f a)) : Unplaced (r >>= f) := by
  cases r with
  | error e => exact unplaced_error (hr e rfl)
  | ok a => exact hf a

theorem Unplaced.map {r : Except TomlError α} (f : α → β) (hr : Unplaced r) :
    Unplaced (r.map f) := by
  cases r with
  | error e => exact unplaced_error (hr e rfl)
  | ok a => exact unplaced_ok (f a)

theorem Unplaced.underKey {r : Except TomlError α} (k : String) (hr : Unplaced r) :
    Unplaced (underKey k r) := by
  cases r with
  | error e => exact unplaced_error (hr e rfl)
  | ok a => exact unplaced_ok a

theorem mapError_render_of_unplaced {r : Except TomlError α} (hr : Unplaced r) (s s' : String) :
    r.mapError (fun e => e.render s) = r.mapError (fun e => e.render s') := by
  -- each side is computed on its own: comparing the two renderings unfolds them
  cases r with
  | ok a => exact (rfl : Except.ok a = Except.ok a)
  | error e =>
    obtain ⟨message, span, keys⟩ := e
    have hspan : span = none := hr _ rfl
    subst hspan
    show Except.error _ = Except.error _
    congr 1

end Unplaced

theorem unplaced_expectString (v : Value) : Unplaced (expectString v) := by
  cases v with
  | string s => exact unplaced_ok s
  | _ => exact unplaced_error rfl

theorem unplaced_expectBool (v : Value) : Unplaced (expectBool v) := by
  cases v with
  | bool b => exact unplaced_ok b
  | _ => exact unplaced_error rfl

theorem unplaced_overrideFields (fs : List (String × Value)) (d : OverridesDraft) :
    Unplaced (overrideFields fs d) := by
  induction fs generalizing d with
  | nil => exact unplaced_ok _
  | cons p fs ih =>
    obtain ⟨k, v⟩ := p
    rw [overrideFields]
    split
    · exact unplaced_error rfl
    · split
      · exact unplaced_error rfl
      · exact ((unplaced_expectString v).underKey k).bind fun _ => ih _

theorem unplaced_overrideItems (items : List Value) : Unplaced (overrideItems items) := by
  unfold overrideItems
  dsimp only
  -- each of the three entries is a string to check, or missing
  refine Unplaced.bind ?_ fun _ => Unplaced.bind ?_ fun _ => Unplaced.bind ?_ fun _ => ?_
  rotate_left 3
  · split
    · exact unplaced_error rfl
    · exact unplaced_ok _
  all_goals
    split
    · exact unplaced_expectString _
    · exact unplaced_error rfl

theorem unplaced_readOverrides (v : Value) : Unplaced (readOverrides v) := by
  cases v with
  | object fs => exact unplaced_overrideFields fs {}
  | array items => exact unplaced_overrideItems items
  | _ => exact unplaced_error rfl

theorem unplaced_snippetFields (fs : List (String × Value)) (d : SnippetDraft) :
    Unplaced (snippetFields fs d) := by
  induction fs generalizing d with
  | nil => exact unplaced_ok d
  | cons p fs ih =>
    obtain ⟨k, v⟩ := p
    rw [snippetFields]
    split
    · exact unplaced_error rfl
    · split
      · exact unplaced_error rfl
      · refine Unplaced.bind (Unplaced.underKey k ?_) ih
        split
        · exact (unplaced_expectString v).map _
        · exact unplaced_ok _
        · exact (unplaced_readOverrides v).map _
        · exact (unplaced_expectBool v).map _

/-! ### Reading a snippet from its table -/

def snippetOfTable (t : Entries) : Except TomlError SnippetInput :=
  snippetFields (plainEntries (datetimesAsTextEntries t)) {} >>= fun d =>
    d.finish.mapError fun m => { message := m }

theorem readSnippet_of_table {text : String} {doc t : Entries}
    (hdoc : parseDocument text = .ok doc) (ht : readEntries doc = .ok t) :
    readSnippet text = (snippetOfTable t).mapError fun e => e.render text := by
  simp only [readSnippet, snippetOfTable, hdoc, ht, bind, Except.bind]

theorem unplaced_snippetOfTable (t : Entries) : Unplaced (snippetOfTable t) := by
  refine (unplaced_snippetFields _ {}).bind fun d => ?_
  cases d.finish with
  | ok i => exact unplaced_ok i
  | error m => exact unplaced_error rfl

theorem readSnippet_eq_of_restated {text text' : String} {doc doc' t t' : Entries}
    (hdoc : parseDocument text = .ok doc) (ht : readEntries doc = .ok t)
    (hdoc' : parseDocument text' = .ok doc') (ht' : readEntries doc' = .ok t')
    (hr : Entries.Restated t t') :
    ConfigTabs.readSnippet .toml text = ConfigTabs.readSnippet .toml text' := by
  have hsame : snippetOfTable t = snippetOfTable t' := by
    rw [snippetOfTable, snippetOfTable, hr.plainEntries_eq]
  have hread : readSnippet text = readSnippet text' := by
    rw [readSnippet_of_table hdoc ht, readSnippet_of_table hdoc' ht', hsame]
    exact mapError_render_of_unplaced (unplaced_snippetOfTable t') text text'
  show (readSnippet text).mapError _ = (readSnippet text').mapError _
  rw [hread]

example : (ConfigTabs.readSnippet .toml "title = 1979-05-27").toOption.map (·.titleTemplate) =
    some "1979-05-27" := by
  decide +kernel

/-! ### The datetime marker -/

namespace Node

def Marked : Node → Prop
  | .inlineTable ((k, _) :: _) _ _ => k.name = datetimeKey
  | .table ((k, _) :: _) _ _ _ => k.name = datetimeKey
  | _ => False

def Unmarked (n : Node) : Prop := ∀ m, Occurs m n → ¬ m.Marked

end Node

theorem readValues_mem : ∀ {ns ms : List Node}, readValues ns = .ok ms →
    ∀ m ∈ ms, ∃ n ∈ ns, readValue n = .ok m
  | [], ms, h => by
    rw [readValues] at h
    cases h
    exact fun m hm => absurd hm not_mem_nil
  | n :: ns, ms, h => by
    rw [readValues] at h
    obtain ⟨m, hm, h⟩ := exists_of_bind_eq_ok h
    obtain ⟨ms', hms', h⟩ := exists_of_bind_eq_ok h
    cases h
    intro m' hm'
    rcases mem_cons.mp hm' with rfl | hm'
    · exact ⟨n, mem_cons_self, hm⟩
    · obtain ⟨n', hn', hread⟩ := readValues_mem hms' m' hm'
      exact ⟨n', mem_cons_of_mem n hn', hread⟩

theorem readEntries_spec : ∀ {es fs : Entries}, readEntries es = .ok fs →
    fs.map Prod.fst = es.map Prod.fst ∧ ∀ f ∈ fs, ∃ e ∈ es, readValue e.2 = .ok f.2
  | [], fs, h => by
    rw [readEntries] at h
    cases h
    exact ⟨rfl, fun f hf => absurd hf not_mem_nil⟩
  | (k, n) :: es, fs, h => by
    rw [readEntries] at h
    obtain ⟨m, hm, h⟩ := exists_of_bind_eq_ok h
    obtain ⟨fs', hfs', h⟩ := exists_of_bind_eq_ok h
    cases h
    obtain ⟨hkeys, hvalues⟩ := readEntries_spec hfs'
    refine ⟨by rw [map_cons, map_cons, hkeys], ?_⟩
    intro f hf
    rcases mem_cons.mp hf with rfl | hf
    · exact ⟨(k, n), mem_cons_self, hm⟩
    · obtain ⟨e, he, hread⟩ := hvalues f hf
      exact ⟨e, mem_cons_of_mem _ he, hread⟩

theorem markedDatetime_eq_ok {k : Key} {v m : Node} (h : markedDatetime k v = .ok m) :
    ∃ d sp, m = .datetime d sp := by
  unfold markedDatetime at h
  split at h
  · split at h
    · cases h
      exact ⟨_, _, rfl⟩
    · cases h
  · cases h

theorem readEntries_cons_eq_ok {k : Key} {v : Node} {rest fs : Entries}
    (h : readEntries ((k, v) :: rest) = .ok fs) :
    (∃ v' rest', fs = (k, v') :: rest') ∧
      ∀ c ∈ fs.map Prod.snd, ∃ c₀ ∈ ((k, v) :: rest).map Prod.snd,
        readValue c₀ = .ok c := by
  obtain ⟨hkeys, hvalues⟩ := readEntries_spec h
  refine ⟨?_, ?_⟩
  · rcases fs with _ | ⟨⟨k', v'⟩, rest'⟩
    · cases hkeys
    · obtain ⟨rfl, -⟩ := cons.inj hkeys
      exact ⟨v', rest', rfl⟩
  · intro c hc
    obtain ⟨f, hf, rfl⟩ := mem_map.mp hc
    obtain ⟨e, he, hread⟩ := hvalues f hf
    exact ⟨e.2, mem_map_of_mem he, hread⟩

theorem readValue_step {n m : Node} (h : readValue n = .ok m) :
    ¬ m.Marked ∧ ∀ c ∈ m.children, ∃ c₀ ∈ n.children, readValue c₀ = .ok c := by
  cases n with
  | array items sp | tableArray items sp =>
    obtain ⟨ms, hms, rfl⟩ := exists_of_map_eq_ok h
    exact ⟨id, readValues_mem hms⟩
  | inlineTable es dotted sp | table es implicit dotted sp =>
    rcases es with _ | ⟨⟨k, v⟩, rest⟩
    · cases h
      exact ⟨id, fun c hc => absurd hc not_mem_nil⟩
    · rw [readValue] at h
      split at h
      · -- the first key is the marker: a date and time, with no children
        obtain ⟨d, sp', rfl⟩ := markedDatetime_eq_ok h
        exact ⟨id, fun c hc => absurd hc not_mem_nil⟩
      · next hk =>
        obtain ⟨fs, hfs, rfl⟩ := exists_of_map_eq_ok h
        obtain ⟨⟨v', rest', rfl⟩, hchildren⟩ := readEntries_cons_eq_ok hfs
        exact ⟨fun hm => hk (beq_iff_eq.mpr hm), hchildren⟩
  | _ =>
    cases h
    exact ⟨id, fun c hc => absurd hc not_mem_nil⟩

theorem readValue_unmarked {n m : Node} (h : readValue n = .ok m) : m.Unmarked := by
  intro m' ho
  induction ho generalizing n with
  | here => exact (readValue_step h).1
  | child hc _ ih =>
    obtain ⟨c₀, -, hc₀⟩ := (readValue_step h).2 _ hc
    exact ih hc₀

theorem marked_of_datetimesAsText {m : Node} (h : (datetimesAsText m).Marked) : m.Marked := by
  cases m with
  | inlineTable es dotted sp | table es implicit dotted sp =>
    rcases es with _ | ⟨⟨k, v⟩, rest⟩ <;> exact h
  | _ => exact h

theorem unmarked_datetimesAsText {n : Node} (h : n.Unmarked) : (datetimesAsText n).Unmarked := by
  intro m ho hm
  obtain ⟨m₀, ho₀, rfl⟩ := occurs_datetimesAsText ho
  exact h m₀ ho₀ (marked_of_datetimesAsText hm)

/-! ### Plain values -/

theorem mem_insertSorted {k : String} {v : Value} {l : List (String × Value)}
    {p : String × Value} :
    p ∈ insertSorted k v l ↔ p = (k, v) ∨ p ∈ l := by
  induction l with
  | nil => simp [insertSorted]
  | cons q l ih =>
    rw [insertSorted]
    split
    · exact mem_cons
    · rw [mem_cons, ih, mem_cons, or_left_comm]

theorem length_insertSorted (k : String) (v : Value) (l : List (String × Value)) :
    (insertSorted k v l).length = l.length + 1 := by
  induction l with
  | nil => rfl
  | cons q l ih =>
    rw [insertSorted]
    split
    · rfl
    · rw [length_cons, ih, length_cons]

theorem length_plainEntries (es : Entries) : (plainEntries es).length = es.length := by
  induction es with
  | nil => rfl
  | cons e es ih =>
    obtain ⟨k, n⟩ := e
    rw [plainEntries, length_insertSorted, ih, length_cons]

theorem mem_plainEntries {es : Entries} {p : String × Value} (h : p ∈ plainEntries es) :
    ∃ e ∈ es, (e.1.name, plain e.2) = p := by
  induction es with
  | nil => exact absurd h not_mem_nil
  | cons e es ih =>
    obtain ⟨k, n⟩ := e
    rw [plainEntries, mem_insertSorted] at h
    rcases h with rfl | h
    · exact ⟨(k, n), mem_cons_self, rfl⟩
    · obtain ⟨e, he, hp⟩ := ih h
      exact ⟨e, mem_cons_of_mem _ he, hp⟩

theorem plainEntries_eq_singleton {es : Entries} {key : String} {x : Value}
    (h : plainEntries es = [(key, x)]) : ∃ k v, es = [(k, v)] ∧ k.name = key := by
  have hlen := congrArg length h
  rw [length_plainEntries] at hlen
  rcases es with _ | ⟨⟨k, v⟩, _ | ⟨e, rest⟩⟩
  · cases hlen
  · have hone : [(k.name, plain v)] = [(key, x)] := h
    obtain ⟨hpair, -⟩ := cons.inj hone
    exact ⟨k, v, rfl, (Prod.mk.inj hpair).1⟩
  · simp at hlen

theorem marked_of_plain {m : Node} {x : Value} (h : plain m = .object [(datetimeKey, x)]) :
    m.Marked := by
  cases m with
  | inlineTable es dotted sp | table es implicit dotted sp =>
    obtain ⟨k, v, rfl, hk⟩ := plainEntries_eq_singleton (Value.object.inj h)
    exact hk
  | _ => cases h

theorem child_of_plain_eq_array {n : Node} {vs : List Value} (h : plain n = .array vs) :
    ∀ v ∈ vs, ∃ c ∈ n.children, plain c = v := by
  cases n with
  | array items sp | tableArray items sp =>
    cases h
    intro v hv
    rw [plainItems_eq_map] at hv
    exact mem_map.mp hv
  | _ => cases h

theorem child_of_plain_eq_object {n : Node} {fs : List (String × Value)}
    (h : plain n = .object fs) :
    ∀ p ∈ fs, ∃ c ∈ n.children, plain c = p.2 := by
  cases n with
  | inlineTable es dotted sp | table es implicit dotted sp =>
    cases h
    intro p hp
    obtain ⟨e, he, rfl⟩ := mem_plainEntries hp
    exact ⟨e.2, mem_map_of_mem he, rfl⟩
  | _ => cases h

theorem occurs_plain {w : Value} {n : Node} (h : Value.Occurs w (plain n)) :
    ∃ m, Node.Occurs m n ∧ plain m = w := by
  generalize hv : plain n = v at h
  induction h generalizing n with
  | here => exact ⟨n, .here, hv⟩
  | item hx _ ih =>
    obtain ⟨c, hc, rfl⟩ := child_of_plain_eq_array hv _ hx
    obtain ⟨m, hm, hmw⟩ := ih rfl
    exact ⟨m, .child hc hm, hmw⟩
  | field hx _ ih =>
    obtain ⟨c, hc, hcv⟩ := child_of_plain_eq_object hv _ hx
    obtain ⟨m, hm, hmw⟩ := ih hcv
    exact ⟨m, .child hc hm, hmw⟩

/-! ### Numbers that are not finite -/

theorem finiteItems_eq_map (vs : List Value) : finiteItems vs = vs.map finiteOnly := by
  induction vs with
  | nil => rfl
  | cons v vs ih => rw [finiteItems, ih, map_cons]

theorem finiteFields_eq_map (fs : List (String × Value)) :
    finiteFields fs = fs.map fun p => (p.1, finiteOnly p.2) := by
  induction fs with
  | nil => rfl
  | cons p fs ih =>
    obtain ⟨k, v⟩ := p
    rw [finiteFields, ih, map_cons]

theorem finiteOnly_eq_array {v : Value} {vs : List Value} (h : finiteOnly v = .array vs) :
    ∃ vs₀, v = .array vs₀ ∧ vs = vs₀.map finiteOnly := by
  cases v with
  | array vs₀ =>
    cases h
    exact ⟨vs₀, rfl, finiteItems_eq_map vs₀⟩
  | number x =>
    cases x with
    | float x =>
      rw [finiteOnly] at h
      split at h <;> cases h
    | _ => cases h
  | _ => cases h

theorem finiteOnly_eq_object {v : Value} {fs : List (String × Value)}
    (h : finiteOnly v = .object fs) :
    ∃ fs₀, v = .object fs₀ ∧ fs = fs₀.map fun p => (p.1, finiteOnly p.2) := by
  cases v with
  | object fs₀ =>
    cases h
    exact ⟨fs₀, rfl, finiteFields_eq_map fs₀⟩
  | number x =>
    cases x with
    | float x =>
      rw [finiteOnly] at h
      split at h <;> cases h
    | _ => cases h
  | _ => cases h

theorem occurs_finiteOnly {w v : Value} (h : Value.Occurs w (finiteOnly v)) :
    ∃ w₀, Value.Occurs w₀ v ∧ finiteOnly w₀ = w := by
  generalize hv : finiteOnly v = v' at h
  induction h generalizing v with
  | here => exact ⟨v, .here, hv⟩
  | item hx _ ih =>
    obtain ⟨vs₀, rfl, rfl⟩ := finiteOnly_eq_array hv
    obtain ⟨x₀, hx₀, rfl⟩ := mem_map.mp hx
    obtain ⟨w₀, hw₀, hw⟩ := ih rfl
    exact ⟨w₀, .item hx₀ hw₀, hw⟩
  | field hx _ ih =>
    obtain ⟨fs₀, rfl, rfl⟩ := finiteOnly_eq_object hv
    obtain ⟨⟨k₀, x₀⟩, hx₀, hkx⟩ := mem_map.mp hx
    cases hkx
    obtain ⟨w₀, hw₀, hw⟩ := ih rfl
    exact ⟨w₀, .field hx₀ hw₀, hw⟩

theorem marker_of_finiteOnly {w x : Value} (h : finiteOnly w = .object [(datetimeKey, x)]) :
    ∃ x₀, w = .object [(datetimeKey, x₀)] := by
  obtain ⟨fs₀, rfl, hfs⟩ := finiteOnly_eq_object h
  obtain ⟨⟨k, x₀⟩, rfl, hk⟩ := map_eq_singleton_iff.mp hfs.symm
  cases hk
  exact ⟨x₀, rfl⟩

theorem no_marker_of_unmarked {n : Node} (hn : n.Unmarked) (x : Value) :
    ¬ Value.Occurs (.object [(datetimeKey, x)]) (finiteOnly (plain (datetimesAsText n))) := by
  intro h
  obtain ⟨w₀, hw₀, hfin⟩ := occurs_finiteOnly h
  obtain ⟨x₀, rfl⟩ := marker_of_finiteOnly hfin
  obtain ⟨m, hm, hplain⟩ := occurs_plain hw₀
  exact unmarked_datetimesAsText hn m hm (marked_of_plain hplain)

/-! ### Where a snippet's data comes from -/

theorem snippetFields_data {fs : List (String × Value)} {d d' : SnippetDraft} {v : Value}
    (h : snippetFields fs d = .ok d') (hv : d'.data = some (some v)) :
    d.data = some (some v) ∨ ∃ p ∈ fs, v = finiteOnly p.2 := by
  induction fs generalizing d with
  | nil =>
    cases h
    exact .inl hv
  | cons p fs ih =>
    obtain ⟨k, w⟩ := p
    rw [snippetFields] at h
    split at h
    · cases h
    · next f _ =>
      split at h
      · cases h
      · obtain ⟨d₁, h₁, h₂⟩ := exists_of_bind_eq_ok h
        rcases ih h₂ with hd₁ | ⟨p, hp, hpv⟩
        · -- the field just read set the data, or left it as it was
          have hstep := eq_ok_of_mapError h₁
          cases f with
          | title =>
            obtain ⟨t, -, rfl⟩ := exists_of_map_eq_ok hstep
            exact .inl hd₁
          | data =>
            cases hstep
            have hw : finiteOnly w = v := by simpa using hd₁
            exact .inr ⟨(k, w), mem_cons_self, hw.symm⟩
          | overrides =>
            obtain ⟨o, -, rfl⟩ := exists_of_map_eq_ok hstep
            exact .inl hd₁
          | excerpt =>
            obtain ⟨b, -, rfl⟩ := exists_of_map_eq_ok hstep
            exact .inl hd₁
        · exact .inr ⟨p, mem_cons_of_mem _ hp, hpv⟩

theorem value_of_finish {d : SnippetDraft} {i : SnippetInput} (h : d.finish = .ok i) :
    i.value = d.data.getD none := by
  unfold SnippetDraft.finish at h
  split at h
  · cases h
  · cases h
    rfl

theorem readSnippet_eq_ok {text : String} {i : SnippetInput} (h : readSnippet text = .ok i) :
    ∃ doc t d, parseDocument text = .ok doc ∧ readEntries doc = .ok t ∧
      snippetFields (plainEntries (datetimesAsTextEntries t)) {} = .ok d ∧ d.finish = .ok i := by
  rw [readSnippet] at h
  obtain ⟨doc, hdoc, h⟩ := exists_of_bind_eq_ok (eq_ok_of_mapError h)
  obtain ⟨t, ht, h⟩ := exists_of_bind_eq_ok h
  obtain ⟨d, hd, h⟩ := exists_of_bind_eq_ok h
  exact ⟨doc, t, d, hdoc, ht, hd, eq_ok_of_mapError h⟩

theorem value_holds_no_marker {text : String} {i : SnippetInput} {v : Value}
    (h : ConfigTabs.readSnippet .toml text = .ok i) (hv : i.value = some v) (x : Value) :
    ¬ Value.Occurs (.object [(datetimeKey, x)]) v := by
  obtain ⟨doc, t, d, -, ht, hd, hi⟩ := readSnippet_eq_ok (eq_ok_of_mapError h)
  have hdata : d.data = some (some v) := by
    rw [value_of_finish hi] at hv
    rcases hdd : d.data with _ | o
    · rw [hdd] at hv
      cases hv
    · rw [hdd] at hv
      exact congrArg some hv
  -- the data is one value of the table, read, with its dates as text and its numbers finite
  rcases snippetFields_data hd hdata with hnone | ⟨p, hp, rfl⟩
  · cases hnone
  · obtain ⟨e, he, rfl⟩ := mem_plainEntries hp
    rw [datetimesAsTextEntries_eq_map] at he
    obtain ⟨⟨k, n⟩, hkn, rfl⟩ := mem_map.mp he
    obtain ⟨e₀, -, hread⟩ := (readEntries_spec ht).2 (k, n) hkn
    exact no_marker_of_unmarked (readValue_unmarked hread) x

/-! ### Dates and times read as text -/

/-- Dates and times in a TOML snippet are read as their text: quoting them changes nothing the
snippet reads, keeps every key and array in place, and leaves no datetime table at any depth. -/
theorem toml_datetimes_read_as_text :
    (∀ t : Entries,
      (datetimesAsTextEntries t).map Prod.fst = t.map Prod.fst ∧
      Entries.Restated t (datetimesAsTextEntries t) ∧
      ∀ e ∈ datetimesAsTextEntries t, Node.Dateless e.2) ∧
    (∀ n : Node, Node.Dateless n → datetimesAsText n = n) ∧
    (∀ (text text' : String) (doc doc' t t' : Entries),
      parseDocument text = .ok doc → readEntries doc = .ok t →
      parseDocument text' = .ok doc' → readEntries doc' = .ok t' → Entries.Restated t t' →
      ConfigTabs.readSnippet .toml text = ConfigTabs.readSnippet .toml text') ∧
    (∀ (text : String) (i : SnippetInput) (v x : Value),
      ConfigTabs.readSnippet .toml text = .ok i → i.value = some v →
      ¬ Value.Occurs (.object [(datetimeKey, x)]) v) := by
  refine ⟨fun t => ⟨keys_datetimesAsTextEntries t, restated_datetimesAsTextEntries t, ?_⟩,
    datetimesAsText_of_dateless, ?_, ?_⟩
  · intro e he
    rw [datetimesAsTextEntries_eq_map] at he
    obtain ⟨e₀, -, rfl⟩ := mem_map.mp he
    exact dateless_datetimesAsText e₀.2
  · intro text text' doc doc' t t' hdoc ht hdoc' ht' hr
    exact readSnippet_eq_of_restated hdoc ht hdoc' ht' hr
  · intro text i v x h hv
    exact value_holds_no_marker h hv x

theorem eq_ok_toOption_getD {ε α : Type} {x : Except ε α} (d : α) (h : x.toOption.isSome = true) :
    x = .ok (x.toOption.getD d) := by
  cases x with
  | ok a => rfl
  | error e => cases h

/-- A date in an inline table inside an array of the data, written bare and quoted: the two
snippets read alike, and the value read holds no table that carries a date. -/
theorem nested_date_reads_as_quoted :
    let bare := "title = \"t\"\n[data]\nwhen = [\x7b at = 1979-05-27 \x7d]\n"
    let quoted := "title = \"t\"\n[data]\nwhen = [\x7b at = \"1979-05-27\" \x7d]\n"
    ConfigTabs.readSnippet .toml bare = ConfigTabs.readSnippet .toml quoted ∧
      ∃ i v, ConfigTabs.readSnippet .toml bare = .ok i ∧ i.value = some v ∧
        ∀ x, ¬ Value.Occurs (.object [(datetimeKey, x)]) v := by
  intro bare quoted
  obtain ⟨-, -, hsame, hmarker⟩ := toml_datetimes_read_as_text
  -- both documents parse and read, and the second says what the first does
  let doc := (parseDocument bare).toOption.getD []
  let doc' := (parseDocument quoted).toOption.getD []
  have hp : (parseDocument bare).toOption.isSome = true := by decide +kernel
  have hq : (readEntries doc).toOption.isSome = true := by decide +kernel
  have hp' : (parseDocument quoted).toOption.isSome = true := by decide +kernel
  have hq' : (readEntries doc').toOption.isSome = true := by decide +kernel
  have hr := restated_of_restatesEntries _ _ (by decide +kernel :
    restatesEntries ((readEntries doc).toOption.getD []) ((readEntries doc').toOption.getD []) = true)
  refine ⟨hsame bare quoted _ _ _ _ (eq_ok_toOption_getD [] hp) (eq_ok_toOption_getD [] hq)
    (eq_ok_toOption_getD [] hp') (eq_ok_toOption_getD [] hq') hr, ?_⟩
  -- the snippet reads, with a value
  let i := (ConfigTabs.readSnippet .toml bare).toOption.getD default
  have hs : (ConfigTabs.readSnippet .toml bare).toOption.isSome = true := by decide +kernel
  have hv : i.value = some (i.value.getD .null) := by
    have h : i.value.isSome = true := by decide +kernel
    cases hi : i.value with
    | none => rw [hi] at h; cases h
    | some v => rfl
  exact ⟨i, _, eq_ok_toOption_getD default hs, hv,
    fun x => hmarker bare _ _ x (eq_ok_toOption_getD default hs) hv⟩

end ConfigTabs.Toml
