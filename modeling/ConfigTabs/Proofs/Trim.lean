import ConfigTabs.Proofs.Render
import ConfigTabs.Proofs.Validation
/-!
Trimming gives the middle of the one split into blanks, body and blanks; excerpt framing
around the trimmed body.
-/
namespace ConfigTabs

namespace Text

/-- Every character is White_Space. -/
def AllBlank (cs : List Char) : Prop := ∀ c ∈ cs, isBlank c = true

def Trimmed (cs : List Char) : Prop :=
  (∀ c ∈ cs.head?, isBlank c = false) ∧ ∀ c ∈ cs.getLast?, isBlank c = false

instance (cs : List Char) : Decidable (AllBlank cs) :=
  inferInstanceAs (Decidable (∀ c ∈ cs, isBlank c = true))

instance (cs : List Char) : Decidable (Trimmed cs) :=
  inferInstanceAs (Decidable (_ ∧ _))

def trimChars (cs : List Char) : List Char := (dropBlank (dropBlank cs).reverse).reverse

theorem toList_trimBlank (s : String) : (trimBlank s).toList = trimChars s.toList := by
  simp [trimBlank, trimChars]

theorem dropBlank_append_of_allBlank {w : List Char} (hw : AllBlank w) (l : List Char) :
    dropBlank (w ++ l) = dropBlank l := by
  induction w with
  | nil => rfl
  | cons c cs ih =>
    have hc : isBlank c = true := hw c (by simp)
    rw [List.cons_append, dropBlank, if_pos hc]
    exact ih fun d hd => hw d (by simp [hd])

theorem exists_blank_prefix (l : List Char) : ∃ w, AllBlank w ∧ l = w ++ dropBlank l := by
  induction l with
  | nil => exact ⟨[], by simp [AllBlank], rfl⟩
  | cons c cs ih =>
    by_cases hc : isBlank c = true
    · obtain ⟨w, hw, hsplit⟩ := ih
      refine ⟨c :: w, ?_, ?_⟩
      · intro d hd
        rcases List.mem_cons.mp hd with rfl | hd
        · exact hc
        · exact hw d hd
      · rw [dropBlank, if_pos hc, List.cons_append, ← hsplit]
    · exact ⟨[], by simp [AllBlank], by rw [dropBlank, if_neg hc, List.nil_append]⟩

theorem head_dropBlank (l : List Char) : ∀ c ∈ (dropBlank l).head?, isBlank c = false := by
  intro c hc
  obtain ⟨cs, hcs⟩ := List.head?_eq_some_iff.mp hc
  exact not_blank_of_dropBlank_eq_cons hcs

theorem trimChars_of_split {w₁ t w₂ : List Char} (h₁ : AllBlank w₁) (h₂ : AllBlank w₂)
    (ht : Trimmed t) : trimChars (w₁ ++ t ++ w₂) = t := by
  unfold trimChars
  rw [List.append_assoc, dropBlank_append_of_allBlank h₁]
  cases t with
  | nil =>
    have hnil : dropBlank w₂ = [] := by simpa [dropBlank] using dropBlank_append_of_allBlank h₂ []
    simp [hnil, dropBlank]
  | cons c cs =>
    -- the part starts with a character that is kept, and the blanks after it come first once
    -- the list is turned around
    have hfront : dropBlank (c :: cs ++ w₂) = c :: cs ++ w₂ := dropBlank_of_head (by simpa using ht.1)
    have hrev : AllBlank w₂.reverse := fun d hd => h₂ d (List.mem_reverse.mp hd)
    have hback : dropBlank (c :: cs).reverse = (c :: cs).reverse :=
      dropBlank_of_head (by rw [List.head?_reverse]; exact ht.2)
    rw [hfront, List.reverse_append, dropBlank_append_of_allBlank hrev, hback, List.reverse_reverse]

theorem trimChars_split (l : List Char) :
    Trimmed (trimChars l) ∧ ∃ w₁ w₂, AllBlank w₁ ∧ AllBlank w₂ ∧ l = w₁ ++ trimChars l ++ w₂ := by
  obtain ⟨w₁, h₁, hl⟩ := exists_blank_prefix l
  obtain ⟨w, hw, hr⟩ := exists_blank_prefix (dropBlank l).reverse
  have hkept : dropBlank l = trimChars l ++ w.reverse := by
    rw [trimChars, ← List.reverse_append, ← hr, List.reverse_reverse]
  refine ⟨⟨?_, ?_⟩, w₁, w.reverse, h₁, fun d hd => hw d (List.mem_reverse.mp hd), ?_⟩
  · -- the first kept character is the first character left after dropping in front
    intro c hc
    obtain ⟨cs, hcs⟩ := List.head?_eq_some_iff.mp hc
    apply head_dropBlank l c
    rw [hkept, hcs]
    rfl
  · intro c hc
    rw [trimChars, List.getLast?_reverse] at hc
    exact head_dropBlank _ c hc
  · rw [List.append_assoc, ← hkept]
    exact hl

theorem trimmed_trimBlank (s : String) : Trimmed (trimBlank s).toList := by
  rw [toList_trimBlank]
  exact (trimChars_split s.toList).1

theorem trimBlank_pad (w₁ s w₂ : String) (h₁ : AllBlank w₁.toList) (h₂ : AllBlank w₂.toList) :
    trimBlank (w₁ ++ s ++ w₂) = trimBlank s := by
  obtain ⟨-, v₁, v₂, hv₁, hv₂, hs⟩ := trimChars_split s.toList
  have hpad : (w₁ ++ s ++ w₂).toList = (w₁.toList ++ v₁) ++ trimChars s.toList ++ (v₂ ++ w₂.toList) :=
    calc (w₁ ++ s ++ w₂).toList = w₁.toList ++ s.toList ++ w₂.toList := by simp
      _ = w₁.toList ++ (v₁ ++ trimChars s.toList ++ v₂) ++ w₂.toList := by rw [← hs]
      _ = (w₁.toList ++ v₁) ++ trimChars s.toList ++ (v₂ ++ w₂.toList) := by simp
  have hall : ∀ {a b : List Char}, AllBlank a → AllBlank b → AllBlank (a ++ b) := by
    intro a b ha hb d hd
    rcases List.mem_append.mp hd with hd | hd
    · exact ha d hd
    · exact hb d hd
  apply String.toList_injective
  rw [toList_trimBlank, toList_trimBlank, hpad,
    trimChars_of_split (hall h₁ hv₁) (hall hv₂ h₂) (trimChars_split s.toList).1]

theorem trimBlank_trimBlank (s : String) : trimBlank (trimBlank s) = trimBlank s :=
  trimBlank_of_ends (trimmed_trimBlank s).1 (trimmed_trimBlank s).2

end Text

namespace Format

@[simp] theorem normalize_none (f : Format) (s : String) : f.normalize s none = Text.trimBlank s := rfl

theorem normalize_trimBlank (f : Format) (s : String) (mk : Option String) :
    f.normalize (Text.trimBlank s) mk = f.normalize s mk := by
  cases mk <;> cases f <;> simp [normalize, Text.trimBlank_trimBlank]

/-- A normalized body has no blank end and is its own normal form; blanks around a text change
nothing; an excerpt puts the marker and an empty line before the body in yaml and toml, and in
json a brace and the marker's line in place of the body's first character. -/
theorem normalize_trims_and_frames (f : Format) (s : String) (mk : Option String) :
    (Text.Trimmed (f.normalize s none).toList ∧ f.normalize (f.normalize s none) none = f.normalize s none) ∧
    (∀ w₁ w₂ : String, Text.AllBlank w₁.toList → Text.AllBlank w₂.toList →
      f.normalize (w₁ ++ s ++ w₂) mk = f.normalize s mk) ∧
    (∀ m, (f = .yaml ∨ f = .toml) → f.normalize s (some m) = m ++ "\n\n" ++ f.normalize s none) ∧
    (∀ m, f = .json →
      f.normalize s (some m) = "\x7b\n" ++ m ++ "\n" ++ String.ofList ((f.normalize s none).toList.drop 1)) ∧
    (∀ m r, f = .json → f.normalize s none = "\x7b" ++ r →
      f.normalize s (some m) = "\x7b" ++ ("\n" ++ m ++ "\n") ++ r) := by
  refine ⟨⟨?_, ?_⟩, ?_, ?_, ?_, ?_⟩
  · exact Text.trimmed_trimBlank s
  · simp only [normalize_none]
    exact Text.trimBlank_trimBlank s
  · intro w₁ w₂ h₁ h₂
    rw [← normalize_trimBlank, Text.trimBlank_pad w₁ s w₂ h₁ h₂, normalize_trimBlank]
  · rintro m (rfl | rfl) <;> rfl
  · rintro m rfl
    rfl
  · rintro m r rfl hp
    -- the brace in front of the trimmed body is the character the excerpt drops
    have hdrop : (Text.trimBlank s).toList.drop 1 = r.toList := by
      rw [← normalize_none .json, hp, String.toList_append]
      rfl
    simp only [normalize, hdrop, String.ofList_toList, String.append_assoc]
    rw [← String.append_assoc]
    rfl

end Format

end ConfigTabs
