import ConfigTabs.Proofs.Render
import Mathlib.Data.Nat.Find
/-!
What a block is made of: the title replaces the first placeholder, and only toml can refuse a
value.
-/
namespace ConfigTabs

/-! ### Titles -/

theorem replaceFirst_of_not_infix {pat rep : List Char} :
    ∀ {s : List Char}, ¬ pat <:+: s → replaceFirst pat rep s = s
  | [], _ => rfl
  | c :: cs, h => by
    have hpre : ¬ pat <+: c :: cs := fun hp => h hp.isInfix
    have hcs : ¬ pat <:+: cs := fun hi => h (hi.trans (List.suffix_cons c cs).isInfix)
    simp [replaceFirst, hpre, replaceFirst_of_not_infix hcs]

theorem replaceFirst_at {pat rep : List Char} (hpat : pat ≠ []) :
    ∀ {s : List Char} {i : Nat}, pat <+: s.drop i → (∀ k < i, ¬ pat <+: s.drop k) →
      replaceFirst pat rep s = s.take i ++ rep ++ s.drop (i + pat.length)
  | [], i, hat, _ => by
    simp at hat
    exact absurd hat hpat
  | c :: cs, 0, hat, _ => by
    simp only [List.drop_zero] at hat
    simp [replaceFirst, hat]
  | c :: cs, i + 1, hat, hfirst => by
    -- no occurrence at the head, so the head is kept and the search goes on one further
    have hpre : ¬ pat <+: c :: cs := hfirst 0 (by omega)
    have hrest : replaceFirst pat rep cs = cs.take i ++ rep ++ cs.drop (i + pat.length) :=
      replaceFirst_at hpat (by simpa using hat) fun k hk => by simpa using hfirst (k + 1) (by omega)
    simp [replaceFirst, hpre, hrest, Nat.add_right_comm]

theorem exists_first_occurrence {pat s : List Char} (h : pat <:+: s) :
    ∃ i, pat <+: s.drop i ∧ ∀ k < i, ¬ pat <+: s.drop k := by
  have hex : ∃ i, pat <+: s.drop i := by
    obtain ⟨a, b, rfl⟩ := h
    exact ⟨a.length, by simp⟩
  classical
  exact ⟨Nat.find hex, Nat.find_spec hex, fun k hk => Nat.find_min hex hk⟩

/-- A title is its template when the placeholder is empty or absent; otherwise the placeholder's
leftmost occurrence gives way to the format's name and everything after it is left unchanged. -/
theorem titleFor_replaces_first_occurrence (o : RenderOptions) (t : String) (f : Format) :
    ((o.placeholder = "" ∨ ¬ o.placeholder.toList <:+: t.toList) → o.titleFor t f = t) ∧
    (o.placeholder ≠ "" → o.placeholder.toList <:+: t.toList →
      ∃ i, o.placeholder.toList <+: t.toList.drop i ∧
        (∀ k < i, ¬ o.placeholder.toList <+: t.toList.drop k) ∧
        o.titleFor t f = String.ofList (t.toList.take i ++ f.name.toList ++
          t.toList.drop (i + o.placeholder.length))) := by
  constructor
  · rintro (hempty | habsent)
    · simp [RenderOptions.titleFor, hempty]
    · by_cases hempty : o.placeholder = ""
      · simp [RenderOptions.titleFor, hempty]
      · simp [RenderOptions.titleFor, hempty, replaceFirst_of_not_infix habsent]
  · intro hne hocc
    obtain ⟨i, hat, hfirst⟩ := exists_first_occurrence hocc
    have hpat : o.placeholder.toList ≠ [] := by simpa using hne
    refine ⟨i, hat, hfirst, ?_⟩
    simp [RenderOptions.titleFor, hne, replaceFirst_at hpat hat hfirst, String.length_toList]

example : ({} : RenderOptions).titleFor "\x7b\x7b format \x7d\x7d / \x7b\x7b format \x7d\x7d" .json =
    "json / \x7b\x7b format \x7d\x7d" := by decide

/-- With the placeholder `aa`, the template `aaa` has two overlapping occurrences; the first is
replaced and the `a` left after it stays. -/
theorem title_with_overlapping_placeholder :
    ({ placeholder := "aa" } : RenderOptions).placeholder ≠ "" ∧ "aa".toList <:+: "aaa".toList ∧
      ∃ i, "aa".toList <+: "aaa".toList.drop i ∧ (∀ k < i, ¬ "aa".toList <+: "aaa".toList.drop k) ∧
        ({ placeholder := "aa" } : RenderOptions).titleFor "aaa" .yaml =
          String.ofList ("aaa".toList.take i ++ "yaml".toList ++ "aaa".toList.drop (i + "aa".length)) :=
  ⟨by decide, by decide, (titleFor_replaces_first_occurrence { placeholder := "aa" } "aaa" .yaml).2
    (by decide) (by decide)⟩

example : ({ placeholder := "aa" } : RenderOptions).titleFor "aaa" .yaml = "yamla" := by decide

/-! ### Values toml refuses -/

namespace Value

inductive Occurs (w : Value) : Value → Prop
  | here : Occurs w w
  | item {v : Value} {vs : List Value} : v ∈ vs → Occurs w v → Occurs w (.array vs)
  | field {k : String} {v : Value} {fs : List (String × Value)} : (k, v) ∈ fs → Occurs w v →
      Occurs w (.object fs)

end Value

namespace Toml

def Unwritable (w : Value) : Prop := w = .null ∨ ∃ n, Nat.pow 2 63 ≤ n ∧ w = .number (.nat n)

theorem firstFaultItems_eq_none_iff (vs : List Value) :
    firstFaultItems vs = none ↔ ∀ v ∈ vs, firstFault v = none := by
  induction vs with
  | nil => simp [firstFaultItems]
  | cons v vs ih => simp [firstFaultItems, ih]

theorem firstFaultFields_eq_none_iff (fs : List (String × Value)) :
    firstFaultFields fs = none ↔ ∀ p ∈ fs, firstFault p.2 = none := by
  induction fs with
  | nil => simp [firstFaultFields]
  | cons p fs ih =>
    obtain ⟨k, v⟩ := p
    simp [firstFaultFields, ih]

theorem firstFault_of_occurs {w v : Value} (h : Value.Occurs w v) (hw : Unwritable w) :
    firstFault v ≠ none := by
  induction h with
  | here =>
    rcases hw with rfl | ⟨n, hn, rfl⟩
    · simp [firstFault]
    · simp [firstFault, hn]
  | item hv _ ih =>
    rw [firstFault, ne_eq, firstFaultItems_eq_none_iff]
    exact fun hall => ih (hall _ hv)
  | field hv _ ih =>
    rw [firstFault, ne_eq, firstFaultFields_eq_none_iff]
    exact fun hall => ih (hall _ hv)

mutual

theorem occurs_of_firstFault : ∀ v : Value, firstFault v ≠ none → ∃ w, Value.Occurs w v ∧ Unwritable w
  | .null, _ => ⟨.null, .here, .inl rfl⟩
  | .bool _, h => absurd rfl h
  | .number (.nat n), h => by
    by_cases hn : Nat.pow 2 63 ≤ n
    · exact ⟨_, .here, .inr ⟨n, hn, rfl⟩⟩
    · simp [firstFault, hn] at h
  | .number (.negInt _), h => absurd rfl h
  | .number (.float _), h => absurd rfl h
  | .string _, h => absurd rfl h
  | .array vs, h => by
    obtain ⟨v, hv, w, hw, hu⟩ := occurs_of_firstFaultItems vs h
    exact ⟨w, .item hv hw, hu⟩
  | .object fs, h => by
    obtain ⟨k, v, hv, w, hw, hu⟩ := occurs_of_firstFaultFields fs h
    exact ⟨w, .field hv hw, hu⟩

theorem occurs_of_firstFaultItems : ∀ vs : List Value, firstFaultItems vs ≠ none →
    ∃ v ∈ vs, ∃ w, Value.Occurs w v ∧ Unwritable w
  | [], h => absurd rfl h
  | v :: vs, h => by
    by_cases hv : firstFault v = none
    · obtain ⟨u, hu, rest⟩ := occurs_of_firstFaultItems vs (by simpa [firstFaultItems, hv] using h)
      exact ⟨u, List.mem_cons_of_mem v hu, rest⟩
    · exact ⟨v, List.mem_cons_self, occurs_of_firstFault v hv⟩

theorem occurs_of_firstFaultFields : ∀ fs : List (String × Value), firstFaultFields fs ≠ none →
    ∃ k v, (k, v) ∈ fs ∧ ∃ w, Value.Occurs w v ∧ Unwritable w
  | [], h => absurd rfl h
  | (k, v) :: fs, h => by
    by_cases hv : firstFault v = none
    · obtain ⟨k', u, hu, rest⟩ := occurs_of_firstFaultFields fs (by simpa [firstFaultFields, hv] using h)
      exact ⟨k', u, List.mem_cons_of_mem _ hu, rest⟩
    · exact ⟨k, v, List.mem_cons_self, occurs_of_firstFault v hv⟩

end

theorem firstFault_ne_none_iff (v : Value) :
    firstFault v ≠ none ↔ ∃ w, Value.Occurs w v ∧ Unwritable w :=
  ⟨occurs_of_firstFault v, fun ⟨_, hw, hu⟩ => firstFault_of_occurs hw hu⟩

theorem write_eq_error_iff (v : Value) :
    (∃ e, write v = .error e) ↔ (∀ fs, v ≠ .object fs) ∨ ∃ w, Value.Occurs w v ∧ Unwritable w := by
  rw [← firstFault_ne_none_iff]
  cases hf : firstFault v with
  | some e => simp [write, hf]
  | none =>
    cases v with
    | object fs => simp [write, hf]
    | _ => simp [write, hf]

end Toml

namespace SnippetInput

theorem renderWith_error_of_value (i : SnippetInput) (o : RenderOptions) {e : SnippetError}
    (hv : i.value.isSome) (h : i.renderWith o = .error e) :
    (∃ m, e = .serialization .toml m) ∧ i.overrides.get .toml = none := by
  have hc : i.missingFormats = [] := by simp [missingFormats, hv]
  obtain ⟨v, -, f, -, -, -, -, hg, hs, -⟩ := (renderWith_eq_error_of_complete i o e).mp ⟨h, hc⟩
  obtain ⟨rfl, m, rfl⟩ := Format.serialize_error hs
  exact ⟨⟨m, rfl⟩, hg⟩

end SnippetInput

/-- Yaml and json write every value. Toml refuses exactly the values whose root is not a table or
in which a null or an integer above `2 ^ 63 - 1` occurs, at any depth. So a snippet with a value
fails to render only in toml, and only when toml has no replacement text. -/
theorem only_toml_refuses :
    (∀ v : Value, (∃ t, Format.yaml.serialize v = .ok t) ∧ (∃ t, Format.json.serialize v = .ok t) ∧
      ((∃ m, Format.toml.serialize v = .error (.serialization .toml m)) ↔
        (∀ fs, v ≠ .object fs) ∨ Value.Occurs .null v ∨
          ∃ n, Nat.pow 2 63 ≤ n ∧ Value.Occurs (.number (.nat n)) v)) ∧
    ∀ (i : SnippetInput) (o : RenderOptions) (e : SnippetError), i.value.isSome →
      i.renderWith o = .error e → (∃ m, e = .serialization .toml m) ∧ i.overrides.get .toml = none := by
  refine ⟨fun v => ⟨⟨_, rfl⟩, ⟨_, rfl⟩, ?_⟩, fun i o _ hv h => SnippetInput.renderWith_error_of_value i o hv h⟩
  -- the toml text fails exactly when the writer does, and an unwritable node is one of two kinds
  have hser : (∃ m, Format.toml.serialize v = .error (.serialization .toml m)) ↔
      ∃ e, Toml.write v = .error e := by
    cases hw : Toml.write v with
    | ok t => simp [Format.serialize, hw]
    | error e => simp [Format.serialize, hw]
  rw [hser, Toml.write_eq_error_iff]
  simp only [Toml.Unwritable]
  constructor
  · rintro (hroot | ⟨w, hw, rfl | ⟨n, hn, rfl⟩⟩)
    · exact .inl hroot
    · exact .inr (.inl hw)
    · exact .inr (.inr ⟨n, hn, hw⟩)
  · rintro (hroot | hnull | ⟨n, hn, hw⟩)
    · exact .inl hroot
    · exact .inr ⟨_, hnull, .inl rfl⟩
    · exact .inr ⟨_, hw, .inr ⟨n, hn, rfl⟩⟩

/-- A null field needs a toml replacement text: the rendering fails in toml. -/
theorem null_field_needs_toml_text :
    ({ titleTemplate := "t", value := some (.object [("a", .null)]) } : SnippetInput).value.isSome ∧
      ({ titleTemplate := "t", value := some (.object [("a", .null)]) } : SnippetInput).renderWith {} =
        .error (.serialization .toml "unsupported unit type") ∧
      (∃ m, SnippetError.serialization .toml "unsupported unit type" = .serialization .toml m) ∧
      ({ titleTemplate := "t", value := some (.object [("a", .null)]) } : SnippetInput).overrides.get .toml =
        none := by
  have h : ({ titleTemplate := "t", value := some (.object [("a", .null)]) } : SnippetInput).renderWith {} =
      .error (.serialization .toml "unsupported unit type") := rfl
  exact ⟨rfl, h, only_toml_refuses.2 _ _ _ rfl h⟩

end ConfigTabs
