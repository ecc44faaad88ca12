import Mathlib.Algebra.Ring.Parity
import Mathlib.Data.List.Induction
import ConfigTabs.Proofs.Markup
/-!
Why an escaped body cannot leave its template literal: an escape is open exactly after an odd
run of backslashes.
-/
namespace ConfigTabs.Mdx

/-- The number of backslashes that end a text. -/
def trailingBackslashes (cs : List Char) : Nat := (cs.reverse.takeWhile (· == '\\')).length

def escapeStep (pending : Bool) (c : Char) : Bool := !pending && c == '\\'

def escapeOpen (pending : Bool) (cs : List Char) : Bool := cs.foldl escapeStep pending

@[simp] theorem escapeOpen_nil (pending : Bool) : escapeOpen pending [] = pending := rfl

@[simp] theorem escapeOpen_cons (pending : Bool) (c : Char) (cs : List Char) :
    escapeOpen pending (c :: cs) = escapeOpen (escapeStep pending c) cs := rfl

theorem trailingBackslashes_concat (cs : List Char) (c : Char) :
    trailingBackslashes (cs ++ [c]) = if c = '\\' then trailingBackslashes cs + 1 else 0 := by
  unfold trailingBackslashes
  by_cases h : c = '\\' <;> simp [h]

theorem escapeOpen_iff_odd (cs : List Char) :
    escapeOpen false cs = true ↔ Odd (trailingBackslashes cs) := by
  induction cs using List.reverseRecOn with
  | nil => simp [trailingBackslashes]
  | append_singleton cs c ih =>
    have hstep : escapeOpen false (cs ++ [c]) = escapeStep (escapeOpen false cs) c := by
      simp [escapeOpen, List.foldl_append]
    rw [hstep, trailingBackslashes_concat]
    by_cases hc : c = '\\'
    · -- another backslash closes an open escape and opens a closed one
      simp only [hc, if_true, escapeStep, beq_self_eq_true, Bool.and_true, Bool.not_eq_eq_eq_not,
        Bool.not_true, Nat.odd_add_one, ← ih, Bool.not_eq_true]
    · simp [hc, escapeStep]

/-! ### Reading a body character by character -/

def mustEscape (c : Char) (rest : List Char) : Bool := c == '`' || (c == '$' && rest.head? == some '\x7b')

def escapesHeld : Bool → List Char → Bool
  | pending, [] => !pending
  | pending, c :: cs => (!mustEscape c cs || pending) && escapesHeld (escapeStep pending c) cs

theorem forall_cut_cons {P : List Char → Char → List Char → Prop} (c : Char) (t : List Char) :
    (∀ pre d post, c :: t = pre ++ d :: post → P pre d post) ↔
      P [] c t ∧ ∀ pre d post, t = pre ++ d :: post → P (c :: pre) d post := by
  constructor
  · intro h
    exact ⟨h [] c t rfl, fun pre d post ht => h (c :: pre) d post (by rw [ht, List.cons_append])⟩
  · rintro ⟨hhead, htail⟩ pre d post hcut
    cases pre with
    | nil =>
      obtain ⟨rfl, rfl⟩ := List.cons.inj hcut
      exact hhead
    | cons x pre =>
      obtain ⟨rfl, ht⟩ := List.cons.inj hcut
      exact htail pre d post ht

theorem escapesHeld_iff (pending : Bool) (t : List Char) :
    escapesHeld pending t = true ↔
      (∀ pre c post, t = pre ++ c :: post → mustEscape c post = true → escapeOpen pending pre = true) ∧
        escapeOpen pending t = false := by
  induction t generalizing pending with
  | nil => simp [escapesHeld]
  | cons c t ih =>
    rw [escapesHeld, Bool.and_eq_true, ih, forall_cut_cons]
    simp only [escapeOpen_cons, escapeOpen_nil, Bool.or_eq_true, Bool.not_eq_true']
    constructor
    · rintro ⟨hc, hcuts, hend⟩
      exact ⟨⟨fun hm => hc.resolve_left (by simp [hm]), hcuts⟩, hend⟩
    · rintro ⟨⟨hc, hcuts⟩, hend⟩
      refine ⟨?_, hcuts, hend⟩
      cases hm : mustEscape c t
      · exact Or.inl rfl
      · exact Or.inr (hc hm)

/-! ### The writer's output -/

theorem head?_escapeTemplateChars {cs : List Char} (h : cs.head? ≠ some '\x7b') :
    (escapeTemplateChars cs).head? ≠ some '\x7b' := by
  intro hhead
  obtain ⟨ds, hds⟩ : ∃ ds, escapeTemplateChars cs = '\x7b' :: ds := by
    cases hx : escapeTemplateChars cs with
    | nil => simp [hx] at hhead
    | cons d ds => rw [hx] at hhead; simp at hhead; exact ⟨ds, by rw [hhead]⟩
  exact escapeTemplateChars_head cs [] h (ds ++ ['`']) (by rw [hds]; rfl)

theorem escapesHeld_escapeTemplateChars (s : List Char) :
    escapesHeld false (escapeTemplateChars s) = true := by
  fun_induction escapeTemplateChars s with
  | case1 => rfl
  | case2 cs ih => simpa [escapesHeld, escapeStep, mustEscape] using ih
  | case3 cs ih => simpa [escapesHeld, escapeStep, mustEscape] using ih
  | case4 cs ih => simpa [escapesHeld, escapeStep, mustEscape] using ih
  | case5 c cs h1 h2 h3 ih =>
    -- a character left alone is no backtick, and a `$` left alone has no brace after it
    have hfree : mustEscape c (escapeTemplateChars cs) = false := by
      have hdollar : c = '$' → cs.head? ≠ some '\x7b' := by
        intro hc hcs
        obtain ⟨ds, rfl⟩ : ∃ ds, cs = '\x7b' :: ds := by
          cases cs with
          | nil => simp at hcs
          | cons d ds => simp at hcs; exact ⟨ds, by rw [hcs]⟩
        exact h3 ds hc rfl
      have htick : c ≠ '`' := h2
      by_cases hc : c = '$'
      · simp [mustEscape, hc, head?_escapeTemplateChars (hdollar hc)]
      · simp [mustEscape, htick, hc]
    have hback : (c == '\\') = false := by simpa using h1
    simpa [escapesHeld, escapeStep, hfree, hback] using ih

/-- The writer's escapes guard every backtick and every `$` before `{` with an odd run of
backslashes; read as a literal's body, the escaped text gives back the original and stops at
the closing backtick. -/
theorem escapeTemplate_reads_back_guarded (s : String) :
    (∀ pre post, (escapeTemplate s).toList = pre ++ '`' :: post → Odd (trailingBackslashes pre)) ∧
    (∀ pre post, (escapeTemplate s).toList = pre ++ '$' :: '\x7b' :: post →
      Odd (trailingBackslashes pre)) ∧
    Even (trailingBackslashes (escapeTemplate s).toList) ∧
    ∀ rest, readTemplate ((escapeTemplate s).toList ++ '`' :: rest) = some (s.toList, rest) := by
  obtain ⟨hcuts, hend⟩ := (escapesHeld_iff false _).mp (escapesHeld_escapeTemplateChars s.toList)
  rw [escapeTemplate_toList]
  refine ⟨fun pre post h => ?_, fun pre post h => ?_, ?_, fun rest => readTemplate_escape _ rest⟩
  · exact (escapeOpen_iff_odd pre).mp (hcuts pre '`' post h (by simp [mustEscape]))
  · exact (escapeOpen_iff_odd pre).mp (hcuts pre '$' ('\x7b' :: post) h (by simp [mustEscape]))
  · rw [← Nat.not_odd_iff_even, ← escapeOpen_iff_odd, hend]
    simp

example : escapeTemplateChars ['\\', '`'] = ['\\', '\\', '\\', '`'] := by decide

end ConfigTabs.Mdx
