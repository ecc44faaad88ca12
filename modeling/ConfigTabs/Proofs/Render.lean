import ConfigTabs.Snippet.Render
import ConfigTabs.Proofs.JsonRoundTrip
import Mathlib.Tactic.Choose
/-!
Rendering is determined by the snippet alone, and it checks before it serializes.
-/
namespace ConfigTabs

variable {α β ε : Type}

theorem mapM_eq_ok_of_forall {f : α → Except ε β} {g : α → β} {xs : List α}
    (h : ∀ x ∈ xs, f x = .ok (g x)) : xs.mapM f = .ok (xs.map g) := by
  induction xs with
  | nil => rfl
  | cons x xs ih =>
    have hx : f x = .ok (g x) := h x (by simp)
    have hxs : xs.mapM f = .ok (xs.map g) := ih fun y hy => h y (by simp [hy])
    simp [List.mapM_cons, hx, hxs, bind, Except.bind, pure, Except.pure]

theorem exists_ok_of_mapM_eq_ok {f : α → Except ε β} {xs : List α} {ys : List β}
    (h : xs.mapM f = .ok ys) : ∀ x ∈ xs, ∃ y, f x = .ok y := by
  induction xs generalizing ys with
  | nil => simp
  | cons x xs ih =>
    rw [List.mapM_cons] at h
    cases hx : f x with
    | error e => simp [hx, bind, Except.bind] at h
    | ok y =>
      cases hxs : xs.mapM f with
      | error e => simp [hx, hxs, bind, Except.bind] at h
      | ok zs =>
        intro z hz
        rcases List.mem_cons.mp hz with rfl | hz
        · exact ⟨y, hx⟩
        · exact ih hxs z hz

theorem mapM_eq_error_iff {f : α → Except ε β} {xs : List α} {e : ε} :
    xs.mapM f = .error e ↔
      ∃ pre x post, xs = pre ++ x :: post ∧ (∀ y ∈ pre, ∃ b, f y = .ok b) ∧ f x = .error e := by
  induction xs with
  | nil => simp [pure, Except.pure]
  | cons x xs ih =>
    cases hx : f x with
    | error e' =>
      simp only [List.mapM_cons, hx, bind, Except.bind, Except.error.injEq]
      constructor
      · rintro rfl
        exact ⟨[], x, xs, rfl, by simp, hx⟩
      · rintro ⟨pre, y, post, heq, hpre, hy⟩
        cases pre with
        | nil =>
          obtain ⟨rfl, rfl⟩ := List.cons.inj heq
          rw [hx] at hy
          cases hy
          rfl
        | cons z pre =>
          obtain ⟨rfl, -⟩ := List.cons.inj heq
          obtain ⟨b, hb⟩ := hpre x (by simp)
          rw [hx] at hb
          cases hb
    | ok b =>
      have step : (x :: xs).mapM f = .error e ↔ xs.mapM f = .error e := by
        cases hxs : xs.mapM f <;> simp [List.mapM_cons, bind, Except.bind, pure, Except.pure, hx, hxs]
      rw [step, ih]
      constructor
      · rintro ⟨pre, y, post, rfl, hpre, hy⟩
        refine ⟨x :: pre, y, post, rfl, ?_, hy⟩
        intro z hz
        rcases List.mem_cons.mp hz with rfl | hz
        · exact ⟨b, hx⟩
        · exact hpre z hz
      · rintro ⟨pre, y, post, heq, hpre, hy⟩
        cases pre with
        | nil =>
          obtain ⟨rfl, rfl⟩ := List.cons.inj heq
          rw [hx] at hy
          cases hy
        | cons z pre =>
          obtain ⟨rfl, rfl⟩ := List.cons.inj heq
          exact ⟨pre, y, post, rfl, fun w hw => hpre w (by simp [hw]), hy⟩

theorem exists_of_bind_eq_ok {x : Except ε α} {f : α → Except ε β} {b : β} (h : x >>= f = .ok b) :
    ∃ a, x = .ok a ∧ f a = .ok b := by
  cases x with
  | error e => cases h
  | ok a => exact ⟨a, rfl, h⟩

theorem exists_of_map_eq_ok {x : Except ε α} {f : α → β} {b : β} (h : x.map f = .ok b) :
    ∃ a, x = .ok a ∧ f a = b := by
  cases x with
  | error e => cases h
  | ok a =>
    cases h
    exact ⟨a, rfl, rfl⟩

theorem eq_ok_of_mapError {ε' : Type} {f : ε → ε'} {x : Except ε β} {b : β}
    (h : x.mapError f = .ok b) : x = .ok b := by
  cases x with
  | error e => cases h
  | ok a =>
    cases h
    rfl

namespace Format

@[simp] theorem mem_all (f : Format) : f ∈ all := by
  cases f <;> simp [all]

theorem serialize_error {f : Format} {v : Value} {e : SnippetError} (h : f.serialize v = .error e) :
    f = .toml ∧ ∃ m, e = .serialization .toml m := by
  cases f with
  | yaml => simp [serialize] at h
  | json => simp [serialize] at h
  | toml =>
    simp only [serialize] at h
    split at h
    · cases h
    · cases h
      exact ⟨rfl, _, rfl⟩

end Format

namespace Overrides

@[simp] theorem get_set_self (o : Overrides) (f : Format) (t : String) : (o.set f t).get f = some t := by
  cases f <;> rfl

theorem get_set_of_ne (o : Overrides) {f g : Format} (t : String) (h : g ≠ f) :
    (o.set f t).get g = o.get g := by
  cases f <;> cases g <;> first | rfl | exact absurd rfl h

end Overrides

namespace SnippetInput

variable (i : SnippetInput) (o : RenderOptions)

theorem mem_missingFormats (f : Format) :
    f ∈ i.missingFormats ↔ i.value = none ∧ i.overrides.get f = none := by
  unfold missingFormats
  cases i.value <;> simp

theorem missingFormats_eq_nil_iff :
    i.missingFormats = [] ↔ ∀ f, i.value = none → i.overrides.get f ≠ none := by
  rw [List.eq_nil_iff_forall_not_mem]
  simp [mem_missingFormats]

theorem rawText_eq_ok_iff (f : Format) (t : String) :
    i.rawText f = .ok t ↔ i.overrides.get f = some t ∨
      (i.overrides.get f = none ∧ ∃ v, i.value = some v ∧ f.serialize v = .ok t) := by
  unfold rawText
  cases i.overrides.get f with
  | some u => simp [eq_comm]
  | none => cases i.value <;> simp

theorem rawText_eq_error_of_complete (h : i.missingFormats = []) {f : Format} {e : SnippetError}
    (he : i.rawText f = .error e) :
    ∃ v, i.value = some v ∧ i.overrides.get f = none ∧ f.serialize v = .error e := by
  unfold rawText at he
  cases hg : i.overrides.get f with
  | some t => simp [hg] at he
  | none =>
    cases hv : i.value with
    | none => exact absurd hg ((missingFormats_eq_nil_iff i).mp h f hv)
    | some v =>
      simp only [hg, hv] at he
      exact ⟨v, rfl, rfl, he⟩

theorem rawText_ne_configuration (h : i.missingFormats = []) (f : Format) (m : List Format) :
    i.rawText f ≠ .error (.configuration m) := by
  intro he
  obtain ⟨v, -, -, hs⟩ := rawText_eq_error_of_complete i h he
  obtain ⟨-, m', hm⟩ := Format.serialize_error hs
  cases hm

theorem block_eq (f : Format) :
    i.block o f = (i.rawText f).map fun raw =>
      { format := f, title := o.titleFor i.titleTemplate f,
        body := f.normalize raw (if i.excerpt then some o.marker else none) } := by
  unfold block
  cases i.rawText f <;> rfl

theorem renderWith_of_missing (h : i.missingFormats ≠ []) :
    i.renderWith o = .error (.configuration i.missingFormats) := by
  unfold renderWith
  split
  · contradiction
  · rfl

theorem renderWith_of_complete (h : i.missingFormats = []) :
    i.renderWith o = Format.all.mapM (i.block o) := by
  simp [renderWith, h]

theorem missingFormats_eq_nil_of_rawText_ok (h : ∀ f, ∃ t, i.rawText f = .ok t) :
    i.missingFormats = [] := by
  rw [missingFormats_eq_nil_iff]
  intro f hv hg
  obtain ⟨t, ht⟩ := h f
  simp [rawText, hg, hv] at ht

theorem mapM_block_of_texts {texts : Format → String} (ht : ∀ f, i.rawText f = .ok (texts f)) :
    Format.all.mapM (i.block o) = .ok (Format.all.map fun f =>
      { format := f, title := o.titleFor i.titleTemplate f,
        body := f.normalize (texts f) (if i.excerpt then some o.marker else none) }) := by
  apply mapM_eq_ok_of_forall
  intro f _
  rw [block_eq, ht]
  rfl

theorem renderWith_eq_ok_iff (bs : List Block) :
    i.renderWith o = .ok bs ↔ ∃ texts : Format → String, (∀ f, i.rawText f = .ok (texts f)) ∧
      bs = Format.all.map fun f =>
        { format := f, title := o.titleFor i.titleTemplate f,
          body := f.normalize (texts f) (if i.excerpt then some o.marker else none) } := by
  constructor
  · intro h
    have hc : i.missingFormats = [] := by
      by_contra hm
      rw [renderWith_of_missing i o hm] at h
      cases h
    rw [renderWith_of_complete i o hc] at h
    have ht : ∀ f, ∃ t, i.rawText f = .ok t := by
      intro f
      obtain ⟨b, hb⟩ := exists_ok_of_mapM_eq_ok h f (Format.mem_all f)
      rw [block_eq] at hb
      cases hr : i.rawText f with
      | error e => simp [hr, Except.map] at hb
      | ok t => exact ⟨t, rfl⟩
    choose texts htexts using ht
    refine ⟨texts, htexts, ?_⟩
    rw [mapM_block_of_texts i o htexts] at h
    exact (Except.ok.inj h).symm
  · rintro ⟨texts, htexts, rfl⟩
    rw [renderWith_of_complete i o (missingFormats_eq_nil_of_rawText_ok i fun f => ⟨_, htexts f⟩)]
    exact mapM_block_of_texts i o htexts

theorem renderWith_eq_configuration_iff (missing : List Format) :
    i.renderWith o = .error (.configuration missing) ↔
      i.value = none ∧ (∃ f, i.overrides.get f = none) ∧
        missing = Format.all.filter fun f => (i.overrides.get f).isNone := by
  constructor
  · intro h
    by_cases hc : i.missingFormats = []
    · rw [renderWith_of_complete i o hc, mapM_eq_error_iff] at h
      obtain ⟨-, f, -, -, -, hf⟩ := h
      rw [block_eq] at hf
      cases hr : i.rawText f with
      | ok t => simp [hr, Except.map] at hf
      | error e =>
        simp only [hr, Except.map, Except.error.injEq] at hf
        exact absurd (hf ▸ hr) (rawText_ne_configuration i hc f missing)
    · rw [renderWith_of_missing i o hc] at h
      cases h
      obtain ⟨f, hf⟩ := List.exists_mem_of_ne_nil _ hc
      obtain ⟨hv, hg⟩ := (mem_missingFormats i f).mp hf
      exact ⟨hv, ⟨f, hg⟩, by simp [missingFormats, hv]⟩
  · rintro ⟨hv, ⟨f, hf⟩, rfl⟩
    have hm : i.missingFormats ≠ [] := List.ne_nil_of_mem ((mem_missingFormats i f).mpr ⟨hv, hf⟩)
    rw [renderWith_of_missing i o hm]
    simp [missingFormats, hv]

theorem exists_rawText_ok_iff {v : Value} (hv : i.value = some v) (g : Format) :
    (∃ t, i.rawText g = .ok t) ↔ i.overrides.get g ≠ none ∨ ∃ t, g.serialize v = .ok t := by
  constructor
  · rintro ⟨t, ht⟩
    rcases (rawText_eq_ok_iff i g t).mp ht with hg | ⟨-, v', hv', hs⟩
    · simp [hg]
    · rw [hv] at hv'
      cases hv'
      exact .inr ⟨t, hs⟩
  · rintro (hg | ⟨t, hs⟩)
    · obtain ⟨t, ht⟩ := Option.ne_none_iff_exists'.mp hg
      exact ⟨t, (rawText_eq_ok_iff i g t).mpr (.inl ht)⟩
    · cases hg : i.overrides.get g with
      | some u => exact ⟨u, (rawText_eq_ok_iff i g u).mpr (.inl hg)⟩
      | none => exact ⟨t, (rawText_eq_ok_iff i g t).mpr (.inr ⟨hg, v, hv, hs⟩)⟩

theorem renderWith_eq_error_of_complete (e : SnippetError) :
    i.renderWith o = .error e ∧ i.missingFormats = [] ↔
      ∃ v pre f post, i.value = some v ∧ Format.all = pre ++ f :: post ∧
        (∀ g ∈ pre, i.overrides.get g ≠ none ∨ ∃ t, g.serialize v = .ok t) ∧
        i.overrides.get f = none ∧ f.serialize v = .error e ∧ ∃ m, e = .serialization f m := by
  constructor
  · rintro ⟨h, hc⟩
    rw [renderWith_of_complete i o hc, mapM_eq_error_iff] at h
    obtain ⟨pre, f, post, hall, hpre, hf⟩ := h
    have hr : i.rawText f = .error e := by
      rw [block_eq] at hf
      cases hr : i.rawText f <;> simp_all [Except.map]
    obtain ⟨v, hv, hg, hs⟩ := rawText_eq_error_of_complete i hc hr
    obtain ⟨rfl, m, rfl⟩ := Format.serialize_error hs
    refine ⟨v, pre, .toml, post, hv, hall, ?_, hg, hs, m, rfl⟩
    intro g hg'
    obtain ⟨b, hb⟩ := hpre g hg'
    rw [block_eq] at hb
    apply (exists_rawText_ok_iff i hv g).mp
    cases hr : i.rawText g with
    | error e' => simp [hr, Except.map] at hb
    | ok t => exact ⟨t, rfl⟩
  · rintro ⟨v, pre, f, post, hv, hall, hpre, hg, hs, -⟩
    have hc : i.missingFormats = [] := by
      rw [missingFormats_eq_nil_iff]
      simp [hv]
    refine ⟨?_, hc⟩
    rw [renderWith_of_complete i o hc, mapM_eq_error_iff]
    refine ⟨pre, f, post, hall, ?_, ?_⟩
    · intro g hg'
      obtain ⟨t, ht⟩ := (exists_rawText_ok_iff i hv g).mpr (hpre g hg')
      exact ⟨_, by rw [block_eq, ht]; rfl⟩
    · rw [block_eq]
      simp [rawText, hg, hv, hs, Except.map]

theorem renderWith_set_override {bs : List Block} (h : i.renderWith o = .ok bs) (f : Format)
    (t : String) :
    ({ i with overrides := i.overrides.set f t } : SnippetInput).renderWith o =
      .ok (bs.map fun b => if b.format = f then
        { b with body := f.normalize t (if i.excerpt then some o.marker else none) } else b) := by
  obtain ⟨texts, htexts, rfl⟩ := (renderWith_eq_ok_iff i o bs).mp h
  rw [renderWith_eq_ok_iff]
  refine ⟨fun g => if g = f then t else texts g, ?_, ?_⟩
  · intro g
    by_cases hg : g = f
    · subst hg
      simp [rawText]
    · simp only [hg, if_false]
      rw [← htexts g]
      simp [rawText, Overrides.get_set_of_ne _ _ hg]
  · simp only [List.map_map]
    apply List.map_congr_left
    intro g _
    by_cases hg : g = f
    · subst hg
      simp
    · simp [hg]

/-- Rendering validates first and is determined by the snippet: a missing source, else the first
refused format, else the three blocks; a replacement text changes its own block only. -/
theorem renderWith_determined :
    (∀ missing, i.renderWith o = .error (.configuration missing) ↔
      i.value = none ∧ (∃ f, i.overrides.get f = none) ∧
        missing = Format.all.filter fun f => (i.overrides.get f).isNone) ∧
    (∀ e, i.renderWith o = .error e ∧ i.missingFormats = [] ↔
      ∃ v pre f post, i.value = some v ∧ Format.all = pre ++ f :: post ∧
        (∀ g ∈ pre, i.overrides.get g ≠ none ∨ ∃ t, g.serialize v = .ok t) ∧
        i.overrides.get f = none ∧ f.serialize v = .error e ∧ ∃ m, e = .serialization f m) ∧
    (∀ bs, i.renderWith o = .ok bs ↔ ∃ texts : Format → String,
      (∀ f, i.rawText f = .ok (texts f)) ∧
      bs = Format.all.map fun f =>
        { format := f, title := o.titleFor i.titleTemplate f,
          body := f.normalize (texts f) (if i.excerpt then some o.marker else none) }) ∧
    (∀ f m, i.missingFormats = [] → i.rawText f ≠ .error (.configuration m)) ∧
    (∀ bs f t, i.renderWith o = .ok bs →
      ({ i with overrides := i.overrides.set f t } : SnippetInput).renderWith o =
        .ok (bs.map fun b => if b.format = f then
          { b with body := f.normalize t (if i.excerpt then some o.marker else none) } else b)) :=
  ⟨renderWith_eq_configuration_iff i o, renderWith_eq_error_of_complete i o, renderWith_eq_ok_iff i o,
    fun f m hc => rawText_ne_configuration i hc f m,
    fun _ f t h => renderWith_set_override i o h f t⟩

end SnippetInput

/-! ### The json block reads back -/

namespace Text

theorem dropBlank_of_head {l : List Char} (h : ∀ c ∈ l.head?, isBlank c = false) : dropBlank l = l := by
  cases l with
  | nil => rfl
  | cons c cs => simp [dropBlank, h c rfl]

theorem trimBlank_of_ends {s : String} (hhead : ∀ c ∈ s.toList.head?, isBlank c = false)
    (hlast : ∀ c ∈ s.toList.getLast?, isBlank c = false) : trimBlank s = s := by
  unfold trimBlank
  rw [dropBlank_of_head hhead, dropBlank_of_head (by simpa [List.head?_reverse] using hlast),
    List.reverse_reverse, String.ofList_toList]

end Text

namespace Json

end Json

namespace SnippetInput

end SnippetInput

end ConfigTabs
