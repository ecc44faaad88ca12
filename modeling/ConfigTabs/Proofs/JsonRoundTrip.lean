import ConfigTabs.Json.Reader
import ConfigTabs.Json.Writer
/-!
Reading back what the JSON writer prints, for values with integral numbers in range, distinct
keys and bounded nesting.
-/
namespace ConfigTabs

theorem toList_foldl_append (g : Char → String) (l : List Char) (a : String) :
    (l.foldl (fun acc c => acc ++ g c) a).toList = a.toList ++ l.flatMap fun c => (g c).toList := by
  induction l generalizing a with
  | nil => simp
  | cons c l ih => simp [ih]

namespace Json

def IsBlank (ch : Char) : Prop := ch = ' ' ∨ ch = '\t' ∨ ch = '\n' ∨ ch = '\r'

instance : DecidablePred IsBlank := fun ch =>
  inferInstanceAs (Decidable (ch = ' ' ∨ ch = '\t' ∨ ch = '\n' ∨ ch = '\r'))

namespace Cursor

@[simp] theorem depth_bump (c : Cursor) : c.bump.depth = c.depth := by
  unfold bump
  split <;> rfl

theorem skipBlank_eq_self {c : Cursor} (h : ∀ ch r, c.rest = ch :: r → ¬ IsBlank ch) :
    c.skipBlank = c := by
  rw [skipBlank]
  split
  · rename_i ch r hr
    have hb := h ch r hr
    simp only [IsBlank, not_or] at hb
    simp [hb]
  · rfl

theorem skipBlank_eq_skipBlank_bump {c : Cursor} {ch : Char} {r : List Char} (h : c.rest = ch :: r)
    (hb : IsBlank ch) : c.skipBlank = c.bump.skipBlank := by
  rw [skipBlank]
  split
  · rename_i ch' r' h'
    obtain ⟨rfl, -⟩ := List.cons.inj (h.symm.trans h')
    rcases hb with rfl | rfl | rfl | rfl <;> simp
  · simp_all

theorem skipBlank_append {c : Cursor} {ws s : List Char} (hc : c.rest = ws ++ s)
    (hws : ∀ ch ∈ ws, IsBlank ch) (hrest : ∀ ch r, s = ch :: r → ¬ IsBlank ch) :
    c.skipBlank.rest = s ∧ c.skipBlank.depth = c.depth := by
  induction ws generalizing c with
  | nil =>
    rw [skipBlank_eq_self (by simpa [hc] using hrest)]
    simpa using hc
  | cons w ws ih =>
    rw [skipBlank_eq_skipBlank_bump hc (hws w (by simp))]
    have step := ih (c := c.bump) (by simp [hc]) (fun ch h => hws ch (by simp [h]))
    simpa using step

end Cursor

theorem readStringBody_close {c : Cursor} {r : List Char} (h : c.rest = '"' :: r) (acc : List Char) :
    readStringBody c acc = .ok (String.ofList acc.reverse, c.bump) := by
  rw [readStringBody]
  split <;> simp_all

theorem readStringBody_plain {c : Cursor} {ch : Char} {r : List Char} (h : c.rest = ch :: r)
    (h1 : ch ≠ '"') (h2 : ch ≠ '\\') (h3 : 0x20 ≤ ch.toNat) (acc : List Char) :
    readStringBody c acc = readStringBody c.bump (ch :: acc) := by
  rw [readStringBody]
  split
  · simp_all
  · exact absurd (List.cons.inj (h.symm.trans ‹_›)).1 h1
  · exact absurd (List.cons.inj (h.symm.trans ‹_›)).1 h2
  · rename_i ch' r' _ _ h'
    obtain ⟨rfl, -⟩ := List.cons.inj (h.symm.trans h')
    simp only [show ¬ ch.toNat < 0x20 by omega, if_false]

def simpleEscapes : List (Char × Char) :=
  [('"', '"'), ('\\', '\\'), ('n', '\n'), ('r', '\r'), ('t', '\t'), ('b', '\x08'), ('f', '\x0c')]

theorem readStringBody_simple {c : Cursor} {e ch : Char} {r : List Char} (h : c.rest = '\\' :: e :: r)
    (he : (e, ch) ∈ simpleEscapes) (acc : List Char) :
    readStringBody c acc = readStringBody c.bump.bump (ch :: acc) := by
  rw [readStringBody]
  split
  · simp_all
  · simp_all
  · simp only [Cursor.rest_bump, h, List.tail_cons]
    simp only [simpleEscapes, List.mem_cons, Prod.mk.injEq, List.not_mem_nil, or_false] at he
    rcases he with ⟨rfl, rfl⟩ | ⟨rfl, rfl⟩ | ⟨rfl, rfl⟩ | ⟨rfl, rfl⟩ | ⟨rfl, rfl⟩ | ⟨rfl, rfl⟩ | ⟨rfl, rfl⟩ <;> rfl
  · simp_all

theorem hexDigit?_hexDigitLower : ∀ k, k < 16 → hexDigit? (hexDigitLower k) = some k
  | 0, _ | 1, _ | 2, _ | 3, _ | 4, _ | 5, _ | 6, _ | 7, _ | 8, _ | 9, _ | 10, _ | 11, _ | 12, _
  | 13, _ | 14, _ | 15, _ => by decide
  | _ + 16, h => absurd h (by omega)

theorem utf8Size_hexDigitLower : ∀ k, k < 16 → (hexDigitLower k).utf8Size = 1
  | 0, _ | 1, _ | 2, _ | 3, _ | 4, _ | 5, _ | 6, _ | 7, _ | 8, _ | 9, _ | 10, _ | 11, _ | 12, _
  | 13, _ | 14, _ | 15, _ => by decide
  | _ + 16, h => absurd h (by omega)

theorem readUnicodeEscape_control {c : Cursor} {n : Nat} {r : List Char} (hn : n < 0x20)
    (h : c.rest = '0' :: '0' :: hexDigitLower (n / 16) :: hexDigitLower (n % 16) :: r) :
    readUnicodeEscape c = .ok (Char.ofNat n, c.bump.bump.bump.bump) := by
  have h16 : n / 16 < 16 := by omega
  have hm : n % 16 < 16 := Nat.mod_lt n (by omega)
  have hhex : readHex4 c = .ok (n, c.bump.bump.bump.bump) := by
    rw [readHex4, h]
    simp only [utf8Size_hexDigitLower _ h16, utf8Size_hexDigitLower _ hm,
      hexDigit?_hexDigitLower _ h16, hexDigit?_hexDigitLower _ hm]
    have hsum : n / 16 * 16 + n % 16 = n := by omega
    simp [show hexDigit? '0' = some 0 by decide, show '0'.utf8Size = 1 by decide, hsum]
  simp only [readUnicodeEscape, hhex, bind, Except.bind, pure, Except.pure]
  have h1 : ¬ (0xDC00 ≤ n ∧ n ≤ 0xDFFF) := by omega
  have h2 : n < 0xD800 ∨ 0xDBFF < n := by omega
  simp [h1, h2]

theorem readStringBody_control {c : Cursor} {n : Nat} {r : List Char} (hn : n < 0x20)
    (h : c.rest = '\\' :: 'u' :: '0' :: '0' :: hexDigitLower (n / 16) :: hexDigitLower (n % 16) :: r)
    (acc : List Char) :
    readStringBody c acc = readStringBody c.bump.bump.bump.bump.bump.bump (Char.ofNat n :: acc) := by
  rw [readStringBody]
  split
  · simp_all
  · simp_all
  · have hu : readUnicodeEscape c.bump.bump = .ok (Char.ofNat n, c.bump.bump.bump.bump.bump.bump) :=
      readUnicodeEscape_control (r := r) hn (by simp [h])
    have h1 : c.bump.rest = 'u' :: '0' :: '0' :: hexDigitLower (n / 16) :: hexDigitLower (n % 16) :: r :=
      by simp [h]
    have hlen : c.rest.length = r.length + 6 := by simp [h]
    dsimp only
    rw [h1]
    simp only [hu]
    simp
    -- the branch where the escape would not have shortened the text is vacuous
    intro hle
    omega
  · simp_all

theorem readStringBody_escapeChar (ch : Char) {c : Cursor} {r : List Char}
    (h : c.rest = (escapeChar ch).toList ++ r) (acc : List Char) :
    ∃ c', c'.rest = r ∧ c'.depth = c.depth ∧ readStringBody c acc = readStringBody c' (ch :: acc) := by
  have simple : ∀ e, (e, ch) ∈ simpleEscapes → c.rest = '\\' :: e :: r →
      ∃ c', c'.rest = r ∧ c'.depth = c.depth ∧ readStringBody c acc = readStringBody c' (ch :: acc) :=
    fun e he hc => ⟨c.bump.bump, by simp [hc], by simp, readStringBody_simple hc he acc⟩
  unfold escapeChar at h
  split at h
  · exact simple '"' (by decide) (by simpa using h)
  · exact simple '\\' (by decide) (by simpa using h)
  · exact simple 'n' (by decide) (by simpa using h)
  · exact simple 'r' (by decide) (by simpa using h)
  · exact simple 't' (by decide) (by simpa using h)
  · exact simple 'b' (by decide) (by simpa using h)
  · exact simple 'f' (by decide) (by simpa using h)
  · rename_i h1 h2 _ _ _ _ _
    split at h
    · rename_i hlt
      refine ⟨c.bump.bump.bump.bump.bump.bump, by simp [h], by simp, ?_⟩
      rw [readStringBody_control hlt (by simpa using h), Char.ofNat_toNat]
    · rename_i hge
      refine ⟨c.bump, by simp [h], by simp, ?_⟩
      exact readStringBody_plain (by simpa using h) h1 h2 (by omega) acc

theorem quote_toList (s : String) :
    (quote s).toList = '"' :: (s.toList.flatMap fun ch => (escapeChar ch).toList) ++ ['"'] := by
  simp [quote, toList_foldl_append]

theorem readStringBody_escaped (l : List Char) {c : Cursor} {r : List Char}
    (h : c.rest = (l.flatMap fun ch => (escapeChar ch).toList) ++ '"' :: r) (acc : List Char) :
    ∃ c', readStringBody c acc = .ok (String.ofList (acc.reverse ++ l), c') ∧ c'.rest = r ∧
      c'.depth = c.depth := by
  induction l generalizing c acc with
  | nil => exact ⟨c.bump, by simpa using readStringBody_close h acc, by simp [h], by simp⟩
  | cons ch l ih =>
    simp only [List.flatMap_cons, List.append_assoc] at h
    obtain ⟨c₁, hr, hd, heq⟩ := readStringBody_escapeChar ch h acc
    obtain ⟨c₂, h₂, hr₂, hd₂⟩ := ih hr (ch :: acc)
    exact ⟨c₂, by rw [heq, h₂]; simp, hr₂, hd₂.trans hd⟩

def Ends (rest : List Char) : Prop := rest = [] ∨ (∃ r, rest = ',' :: r) ∨ ∃ r, rest = '\n' :: r

theorem Ends.not_digit {rest : List Char} (h : Ends rest) {ch : Char} {r : List Char}
    (hr : rest = ch :: r) : isDigit ch = false ∧ ch ≠ '.' ∧ ch ≠ 'e' ∧ ch ≠ 'E' := by
  rcases h with rfl | ⟨r', rfl⟩ | ⟨r', rfl⟩
  · cases hr
  · obtain ⟨rfl, -⟩ := List.cons.inj hr
    decide
  · obtain ⟨rfl, -⟩ := List.cons.inj hr
    decide

theorem isDigit_of_mem_toDigits {n : Nat} {ch : Char} (h : ch ∈ Nat.toDigits 10 n) :
    isDigit ch = true := by
  have hd := Nat.isDigit_of_mem_toDigits (by decide) (by decide) h
  simp only [Char.isDigit, Bool.and_eq_true, decide_eq_true_eq] at hd
  simp only [isDigit, Bool.and_eq_true, decide_eq_true_eq]
  exact ⟨hd.1, hd.2⟩

theorem toDigits_head_ne_zero {n : Nat} (hn : 0 < n) :
    ∃ d ds, Nat.toDigits 10 n = d :: ds ∧ d ≠ '0' := by
  induction n using Nat.strongRecOn with
  | ind n ih =>
    by_cases hlt : n < 10
    · refine ⟨n.digitChar, [], Nat.toDigits_of_lt_base hlt, ?_⟩
      have : n ∈ [1, 2, 3, 4, 5, 6, 7, 8, 9] := by simp; omega
      simp only [List.mem_cons, List.not_mem_nil, or_false] at this
      rcases this with rfl | rfl | rfl | rfl | rfl | rfl | rfl | rfl | rfl <;> decide
    · obtain ⟨d, ds, hds, hd⟩ := ih (n / 10) (by omega) (by omega)
      exact ⟨d, ds ++ [(n % 10).digitChar], by rw [Nat.toDigits_of_base_le (by decide) (by omega), hds]; rfl, hd⟩

theorem le_ofDigitChars (ds : List Char) (s : Nat) : s ≤ Nat.ofDigitChars 10 ds s := by
  rw [Nat.ofDigitChars_eq_ofDigitChars_zero]
  have : 0 < 10 ^ ds.length := Nat.pow_pos (by decide)
  have : s ≤ 10 ^ ds.length * s := Nat.le_mul_of_pos_left s this
  omega

theorem readNumberTail_end {c : Cursor} (h : Ends c.rest) (positive : Bool) (s : Nat) :
    readNumberTail c positive s =
      if positive then .ok (.nat s, c)
      else if s = 0 then .ok (.float (Binary64.zero true), c)
      else if s ≤ Nat.pow 2 63 then .ok (.negInt (-(s : Int)), c)
      else .ok (.float (Binary64.ofNat s).neg, c) := by
  unfold readNumberTail
  split
  · exact absurd rfl (h.not_digit ‹_›).2.1
  · exact absurd rfl (h.not_digit ‹_›).2.2.1
  · exact absurd rfl (h.not_digit ‹_›).2.2.2
  · rfl

theorem readIntegerDigits_digits (positive : Bool) (ds : List Char) {c : Cursor} {rest : List Char}
    (hc : c.rest = ds ++ rest) (hds : ∀ ch ∈ ds, isDigit ch = true) (hrest : Ends rest) (s : Nat)
    (hfit : Nat.ofDigitChars 10 ds s < Nat.pow 2 64) :
    ∃ c', readIntegerDigits c positive s = readNumberTail c' positive (Nat.ofDigitChars 10 ds s) ∧
      c'.rest = rest ∧ c'.depth = c.depth := by
  induction ds generalizing c s with
  | nil =>
    refine ⟨c, ?_, by simpa using hc, rfl⟩
    rw [readIntegerDigits]
    split
    · rename_i ch r hr
      simp only [List.nil_append] at hc
      rw [hc] at hr
      simp [(hrest.not_digit hr).1, Nat.ofDigitChars]
    · rfl
  | cons d ds ih =>
    have hd : isDigit d = true := hds d (by simp)
    have hstep : 10 * s + digitVal d ≤ Nat.ofDigitChars 10 (d :: ds) s := by
      rw [Nat.ofDigitChars_cons]
      exact le_ofDigitChars ds _
    have hcons : Nat.ofDigitChars 10 ds (10 * s + digitVal d) = Nat.ofDigitChars 10 (d :: ds) s := by
      rw [Nat.ofDigitChars_cons]
      rfl
    have hno : overflows64 s (digitVal d) = false := by
      simp only [overflows64, decide_eq_false_iff_not]
      have : Nat.pow 2 64 = 18446744073709551616 := by decide
      omega
    obtain ⟨c', h', hr', hd'⟩ := ih (c := c.bump) (by simp [hc]) (fun ch h => hds ch (by simp [h]))
      (10 * s + digitVal d) (by rwa [hcons])
    rw [hcons] at h'
    refine ⟨c', ?_, hr', by simpa using hd'⟩
    rw [readIntegerDigits]
    split
    · rename_i ch r hr
      rw [hc] at hr
      obtain ⟨rfl, -⟩ := List.cons.inj hr
      simp only [hd, hno, if_true, Bool.false_eq_true, if_false, h']
    · simp_all

theorem readNumber_toDigits {n : Nat} (hn : n < Nat.pow 2 64) {c : Cursor} {rest : List Char}
    (hc : c.rest = Nat.toDigits 10 n ++ rest) (hrest : Ends rest) (positive : Bool) :
    ∃ c', readNumber c positive = readNumberTail c' positive n ∧ c'.rest = rest ∧ c'.depth = c.depth := by
  rcases Nat.eq_zero_or_pos n with rfl | hpos
  · refine ⟨c.bump, ?_, by simp [hc, Nat.toDigits_zero], by simp⟩
    rw [Nat.toDigits_zero] at hc
    rw [readNumber]
    split
    · simp_all
    · rename_i r hr
      rw [hc] at hr
      obtain ⟨-, rfl⟩ := List.cons.inj hr
      split
      · rename_i ch r' hr'
        simp [(hrest.not_digit hr').1]
      · rfl
    · rename_i ch r _ hr
      rw [hc] at hr
      exact absurd (List.cons.inj hr).1.symm ‹_›
  · obtain ⟨d, ds, hds, hd0⟩ := toDigits_head_ne_zero hpos
    have hdig : ∀ ch ∈ d :: ds, isDigit ch = true := fun ch h => isDigit_of_mem_toDigits (hds ▸ h)
    have hval : Nat.ofDigitChars 10 ds (digitVal d) = n := by
      have := Nat.ofDigitChars_ten_toDigits (n := n)
      rw [hds, Nat.ofDigitChars_cons] at this
      simpa [digitVal] using this
    obtain ⟨c', h', hr', hd'⟩ := readIntegerDigits_digits positive ds (c := c.bump) (by simp [hc, hds])
      (fun ch h => hdig ch (by simp [h])) hrest (digitVal d) (by rw [hval]; exact hn)
    refine ⟨c', ?_, hr', by simpa using hd'⟩
    rw [hval] at h'
    rw [readNumber]
    split
    · simp_all
    · rename_i r hr
      rw [hc, hds] at hr
      exact absurd (List.cons.inj hr).1 hd0
    · rename_i _ ch r _ hr
      rw [hc, hds] at hr
      obtain ⟨rfl, -⟩ := List.cons.inj hr
      rw [if_pos (hdig _ (by simp))]
      exact h'

theorem readIdent_append (w : List Char) {c : Cursor} {s : List Char} (hc : c.rest = w ++ s) :
    ∃ c', readIdent c w = .ok c' ∧ c'.rest = s ∧ c'.depth = c.depth := by
  induction w generalizing c with
  | nil => exact ⟨c, rfl, by simpa using hc, rfl⟩
  | cons x w ih =>
    obtain ⟨c', h', hr', hd'⟩ := ih (c := c.bump) (by simp [hc])
    refine ⟨c', ?_, hr', by simpa using hd'⟩
    rw [readIdent]
    split
    · simp_all
    · rename_i y r hr
      rw [hc] at hr
      obtain ⟨rfl, -⟩ := List.cons.inj hr
      simpa using h'

theorem readValue_blank {fuel : Nat} {c : Cursor} {e : Char} {r : List Char} (h : c.rest = e :: r)
    (hb : IsBlank e) : readValue (fuel + 1) c = readValue (fuel + 1) c.bump := by
  simp only [readValue, Cursor.skipBlank_eq_skipBlank_bump h hb]

/-- The reader gives back `v` from its text written at `level` and followed by `rest`, within
`d` levels of nesting. -/
def ReadsFrom (d : Nat) (v : Value) : Prop :=
  ∀ (level fuel : Nat) (c : Cursor) (rest : List Char), c.rest = (pretty level v).toList ++ rest →
    d < c.depth → (pretty level v).length < fuel → Ends rest →
    ∃ c', readValue fuel c = .ok (v, c') ∧ c'.rest = rest ∧ c'.depth = c.depth

theorem skipBlank_of_head {c : Cursor} {ch : Char} {r : List Char} (h : c.rest = ch :: r)
    (hb : ch ∈ ['n', 't', 'f', '"', '-', '[', '\x7b'] ∨ isDigit ch = true) : c.skipBlank = c := by
  apply Cursor.skipBlank_eq_self
  intro ch' r' h'
  obtain ⟨rfl, -⟩ := List.cons.inj (h.symm.trans h')
  simp only [IsBlank]
  rcases hb with hb | hb
  · simp only [List.mem_cons, List.not_mem_nil, or_false] at hb
    rcases hb with rfl | rfl | rfl | rfl | rfl | rfl | rfl <;> decide
  · simp only [isDigit, Bool.and_eq_true, decide_eq_true_eq] at hb
    rintro (rfl | rfl | rfl | rfl) <;> simp_all [Char.le_def]

theorem readsFrom_null (d : Nat) : ReadsFrom d .null := by
  intro level fuel c rest hc _ hfuel _
  obtain ⟨fuel, rfl⟩ : ∃ f, fuel = f + 1 := ⟨fuel - 1, by omega⟩
  have hn : c.rest = 'n' :: (['u', 'l', 'l'] ++ rest) := by simp [hc, pretty]
  obtain ⟨c', h', hr', hd'⟩ := readIdent_append ['u', 'l', 'l'] (c := c.bump) (s := rest) (by simp [hn])
  refine ⟨c', ?_, hr', by simpa using hd'⟩
  rw [readValue, skipBlank_of_head hn (by simp)]
  simp [hn, h', Except.map]

theorem readsFrom_bool (d : Nat) (b : Bool) : ReadsFrom d (.bool b) := by
  intro level fuel c rest hc _ hfuel _
  obtain ⟨fuel, rfl⟩ : ∃ f, fuel = f + 1 := ⟨fuel - 1, by omega⟩
  cases b with
  | true =>
    have ht : c.rest = 't' :: (['r', 'u', 'e'] ++ rest) := by simp [hc, pretty]
    obtain ⟨c', h', hr', hd'⟩ := readIdent_append ['r', 'u', 'e'] (c := c.bump) (s := rest) (by simp [ht])
    refine ⟨c', ?_, hr', by simpa using hd'⟩
    rw [readValue, skipBlank_of_head ht (by simp)]
    simp [ht, h', Except.map]
  | false =>
    have hf : c.rest = 'f' :: (['a', 'l', 's', 'e'] ++ rest) := by simp [hc, pretty]
    obtain ⟨c', h', hr', hd'⟩ := readIdent_append ['a', 'l', 's', 'e'] (c := c.bump) (s := rest) (by simp [hf])
    refine ⟨c', ?_, hr', by simpa using hd'⟩
    rw [readValue, skipBlank_of_head hf (by simp)]
    simp [hf, h', Except.map]

theorem readsFrom_string (d : Nat) (s : String) : ReadsFrom d (.string s) := by
  intro level fuel c rest hc _ hfuel _
  obtain ⟨fuel, rfl⟩ : ∃ f, fuel = f + 1 := ⟨fuel - 1, by omega⟩
  have hq : c.rest = '"' :: ((s.toList.flatMap fun ch => (escapeChar ch).toList) ++ '"' :: rest) := by
    simp [hc, pretty, quote_toList]
  obtain ⟨c', h', hr', hd'⟩ := readStringBody_escaped s.toList (c := c.bump) (r := rest) (by simp [hq]) []
  refine ⟨c', ?_, hr', by simpa using hd'⟩
  rw [readValue, skipBlank_of_head hq (by simp)]
  simp [hq, h', Except.map]

theorem readValue_digit {fuel : Nat} {c : Cursor} {ch : Char} {r : List Char} (h : c.rest = ch :: r)
    (hd : isDigit ch = true) :
    readValue (fuel + 1) c = (readNumber c true).map fun (n, d) => (.number n, d) := by
  have hch : '0' ≤ ch ∧ ch ≤ '9' := by simpa [isDigit] using hd
  -- the first character is none of the letters and brackets that start other values
  have other : ∀ x tail, c.rest = x :: tail → x ∈ ['n', 't', 'f', '-', '"', '[', '\x7b'] → False := by
    intro x tail hx hm
    obtain ⟨rfl, -⟩ := List.cons.inj (h.symm.trans hx)
    simp only [List.mem_cons, List.not_mem_nil, or_false] at hm
    rcases hm with rfl | rfl | rfl | rfl | rfl | rfl | rfl <;> exact absurd hch (by decide)
  rw [readValue, skipBlank_of_head h (.inr hd)]
  split
  · simp_all
  · exact (other _ _ ‹_› (by simp)).elim
  · exact (other _ _ ‹_› (by simp)).elim
  · exact (other _ _ ‹_› (by simp)).elim
  · exact (other _ _ ‹_› (by simp)).elim
  · exact (other _ _ ‹_› (by simp)).elim
  · exact (other _ _ ‹_› (by simp)).elim
  · exact (other _ _ ‹_› (by simp)).elim
  · rename_i ch' _ _ _ _ _ _ _ _ hc
    obtain ⟨rfl, -⟩ := List.cons.inj (h.symm.trans hc)
    simp [hch]

theorem readValue_minus {fuel : Nat} {c : Cursor} {r : List Char} (h : c.rest = '-' :: r) :
    readValue (fuel + 1) c = (readNumber c.bump false).map fun (n, d) => (.number n, d) := by
  rw [readValue, skipBlank_of_head h (by simp)]
  simp [h]

theorem readsFrom_nat (d n : Nat) (hn : n < Nat.pow 2 64) : ReadsFrom d (.number (.nat n)) := by
  intro level fuel c rest hc _ hfuel hrest
  obtain ⟨fuel, rfl⟩ : ∃ f, fuel = f + 1 := ⟨fuel - 1, by omega⟩
  have hc' : c.rest = Nat.toDigits 10 n ++ rest := by simp [hc, pretty, numberText]
  obtain ⟨c', h', hr', hd'⟩ := readNumber_toDigits hn hc' hrest true
  obtain ⟨x, xs, hx⟩ : ∃ x xs, Nat.toDigits 10 n = x :: xs := by
    cases hds : Nat.toDigits 10 n with
    | nil => exact absurd hds Nat.toDigits_ne_nil
    | cons x xs => exact ⟨x, xs, rfl⟩
  have hdig : isDigit x = true := isDigit_of_mem_toDigits (n := n) (by simp [hx])
  refine ⟨c', ?_, hr', hd'⟩
  rw [readValue_digit (by rw [hc', hx]; rfl) hdig, h', readNumberTail_end (by rwa [hr'])]
  rfl

theorem readsFrom_negInt (d : Nat) (i : Int) (hneg : i < 0) (hmin : -(Nat.pow 2 63 : Int) ≤ i) :
    ReadsFrom d (.number (.negInt i)) := by
  intro level fuel c rest hc _ hfuel hrest
  obtain ⟨fuel, rfl⟩ : ∃ f, fuel = f + 1 := ⟨fuel - 1, by omega⟩
  obtain ⟨m, rfl⟩ : ∃ m, i = Int.negSucc m := ⟨i.natAbs - 1, by omega⟩
  have hm : m + 1 ≤ Nat.pow 2 63 := by omega
  have hc' : c.rest = '-' :: (Nat.toDigits 10 (m + 1) ++ rest) := by
    simp [hc, pretty, numberText, Int.repr]
  have hpow : Nat.pow 2 63 < Nat.pow 2 64 := by decide
  obtain ⟨c', h', hr', hd'⟩ := readNumber_toDigits (n := m + 1) (by omega) (c := c.bump)
    (by simp [hc']) hrest false
  refine ⟨c', ?_, hr', by simpa using hd'⟩
  rw [readValue_minus hc', h', readNumberTail_end (by rwa [hr'])]
  simp only [Bool.false_eq_true, if_false, Nat.add_one_ne_zero, hm, if_true]
  rfl

/-! ### Arrays and objects -/

/-- A value the reader gives back as it is: its numbers are integers in the reader's range, its
objects have distinct keys, and arrays and objects nest at most `d` deep. -/
inductive ReadsBack : Nat → Value → Prop
  | null (d : Nat) : ReadsBack d .null
  | bool (d : Nat) (b : Bool) : ReadsBack d (.bool b)
  | nat (d n : Nat) (h : n < Nat.pow 2 64) : ReadsBack d (.number (.nat n))
  | negInt (d : Nat) (i : Int) (hneg : i < 0) (hmin : -(Nat.pow 2 63 : Int) ≤ i) :
      ReadsBack d (.number (.negInt i))
  | string (d : Nat) (s : String) : ReadsBack d (.string s)
  | array (d : Nat) (vs : List Value) (h : ∀ v ∈ vs, ReadsBack d v) : ReadsBack (d + 1) (.array vs)
  | object (d : Nat) (fs : List (String × Value)) (keys : (fs.map Prod.fst).Nodup)
      (h : ∀ p ∈ fs, ReadsBack d p.2) : ReadsBack (d + 1) (.object fs)

theorem toList_pad (n : Nat) : (pad n).toList = List.replicate (2 * n) ' ' := by
  simp [pad]

theorem blank_of_mem_pad {n : Nat} {ch : Char} (h : ch ∈ (pad n).toList) : IsBlank ch := by
  rw [toList_pad] at h
  exact .inl (List.eq_of_mem_replicate h)

theorem pretty_head {d : Nat} {v : Value} (hv : ReadsBack d v) (level : Nat) :
    ∃ ch, (pretty level v).toList.head? = some ch ∧
      (ch ∈ ['n', 't', 'f', '"', '-', '[', '\x7b'] ∨ isDigit ch = true) := by
  cases hv with
  | null => exact ⟨'n', by simp [pretty], by simp⟩
  | bool d b => cases b <;> exact ⟨_, by simp [pretty]; rfl, by simp⟩
  | nat d n h =>
    cases hds : Nat.toDigits 10 n with
    | nil => exact absurd hds Nat.toDigits_ne_nil
    | cons x xs =>
      exact ⟨x, by simp [pretty, numberText, hds],
        .inr (isDigit_of_mem_toDigits (n := n) (by simp [hds]))⟩
  | negInt d i hneg hmin =>
    obtain ⟨m, rfl⟩ : ∃ m, i = Int.negSucc m := ⟨i.natAbs - 1, by omega⟩
    exact ⟨'-', by simp [pretty, numberText, Int.repr], by simp⟩
  | string d s => exact ⟨'"', by simp [pretty, quote_toList], by simp⟩
  | array d vs h => cases vs <;> exact ⟨'[', by simp [pretty], by simp⟩
  | object d fs keys h => cases fs <;> exact ⟨'\x7b', by simp [pretty], by simp⟩

def StartsValue (ch : Char) : Prop := ch ∈ ['n', 't', 'f', '"', '-', '[', '\x7b'] ∨ isDigit ch = true

theorem StartsValue.ne {ch : Char} (h : StartsValue ch) :
    ¬ IsBlank ch ∧ ch ≠ ']' ∧ ch ≠ ',' ∧ ch ≠ '\x7d' := by
  rcases h with h | h
  · simp only [List.mem_cons, List.not_mem_nil, or_false] at h
    rcases h with rfl | rfl | rfl | rfl | rfl | rfl | rfl <;> decide
  · simp only [isDigit, Bool.and_eq_true, decide_eq_true_eq] at h
    simp only [IsBlank]
    refine ⟨?_, ?_, ?_, ?_⟩ <;> (try rintro (rfl | rfl | rfl | rfl)) <;> simp_all [Char.le_def]

theorem pretty_eq_cons {d : Nat} {v : Value} (hv : ReadsBack d v) (level : Nat) :
    ∃ ch r, (pretty level v).toList = ch :: r ∧ StartsValue ch := by
  obtain ⟨ch, hh, hs⟩ := pretty_head hv level
  cases h : (pretty level v).toList with
  | nil => simp [h] at hh
  | cons x r =>
    rw [h, List.head?_cons, Option.some.injEq] at hh
    exact ⟨x, r, rfl, hh ▸ hs⟩

theorem skipBlank_blanks {c : Cursor} {ws : List Char} {e : Char} {r : List Char}
    (hc : c.rest = ws ++ e :: r) (hws : ∀ x ∈ ws, IsBlank x) (hch : ¬ IsBlank e) :
    c.skipBlank.rest = e :: r ∧ c.skipBlank.depth = c.depth :=
  Cursor.skipBlank_append hc hws fun x r' h => by
    obtain ⟨rfl, -⟩ := List.cons.inj h
    exact hch

theorem enter_ok {c : Cursor} (h : 1 < c.depth) : enter c = .ok { c.bump with depth := c.depth - 1 } := by
  simp [enter, show ¬ c.depth ≤ 1 by omega]

theorem endArray_close {c : Cursor} {r : List Char} (h : c.rest = ']' :: r) : endArray c = .ok c.bump := by
  have hs : c.skipBlank = c := Cursor.skipBlank_eq_self (by
    intro ch r' h'
    obtain ⟨rfl, -⟩ := List.cons.inj (h.symm.trans h')
    decide)
  simp [endArray, hs, h]

theorem nextElement_close {c : Cursor} {w r : List Char} (hc : c.rest = w ++ ']' :: r)
    (hws : ∀ x ∈ w, IsBlank x) (first : Bool) :
    ∃ c', nextElement c first = .ok (false, c') ∧ c'.rest = ']' :: r ∧ c'.depth = c.depth := by
  obtain ⟨hr, hd⟩ := skipBlank_blanks hc hws (by decide)
  exact ⟨c.skipBlank, by simp [nextElement, hr], hr, hd⟩

theorem nextElement_first {c : Cursor} {ws r : List Char} {ch : Char} (hc : c.rest = ws ++ ch :: r)
    (hws : ∀ x ∈ ws, IsBlank x) (hch : StartsValue ch) :
    ∃ c', nextElement c true = .ok (true, c') ∧ c'.rest = ch :: r ∧ c'.depth = c.depth := by
  obtain ⟨hb, hne, hcomma, -⟩ := hch.ne
  obtain ⟨hr, hd⟩ := skipBlank_blanks hc hws hb
  refine ⟨c.skipBlank, ?_, hr, hd⟩
  unfold nextElement
  split <;> simp_all

theorem nextElement_comma {c : Cursor} {w r : List Char} {ch : Char}
    (hc : c.rest = ',' :: (w ++ ch :: r)) (hws : ∀ x ∈ w, IsBlank x) (hch : StartsValue ch) :
    ∃ c', nextElement c false = .ok (true, c') ∧ c'.rest = ch :: r ∧ c'.depth = c.depth := by
  obtain ⟨hb, hne, -, -⟩ := hch.ne
  have hs : c.skipBlank = c := Cursor.skipBlank_eq_self (by
    intro x r' h'
    obtain ⟨rfl, -⟩ := List.cons.inj (hc.symm.trans h')
    decide)
  obtain ⟨hr, hd⟩ := skipBlank_blanks (c := c.bump) (r := r) (by simp [hc]) hws hb
  refine ⟨c.bump.skipBlank, ?_, hr, by simpa using hd⟩
  unfold nextElement
  simp only [hs, hc]
  split <;> simp_all

theorem readElements_stop {fuel : Nat} {c c' : Cursor} {acc : List Value} {first : Bool}
    (h : nextElement c first = .ok (false, c')) :
    readElements (fuel + 1) c acc first = .ok (acc.reverse, c') := by
  simp [readElements, h, bind, Except.bind, pure, Except.pure]

theorem readElements_more {fuel : Nat} {c c' c'' : Cursor} {acc : List Value} {first : Bool} {v : Value}
    (h : nextElement c first = .ok (true, c')) (hv : readValue fuel c' = .ok (v, c'')) :
    readElements (fuel + 1) c acc first = readElements fuel c'' (v :: acc) false := by
  simp [readElements, h, hv, bind, Except.bind]

theorem readValue_array {n : Nat} {c : Cursor} {r : List Char} (h : c.rest = '[' :: r)
    (hdepth : 1 < c.depth) :
    ∃ d₀ : Cursor, d₀.rest = r ∧ d₀.depth = c.depth - 1 ∧ ∀ items d₁ d₂,
      readElements n d₀ [] true = .ok (items, d₁) → endArray (leave d₁) = .ok d₂ →
      readValue (n + 1) c = .ok (.array items, d₂) := by
  refine ⟨{ c.bump with depth := c.depth - 1 }, by simp [h], rfl, ?_⟩
  intro items d₁ d₂ hel hend
  rw [readValue, skipBlank_of_head h (by simp)]
  simp only [h, enter_ok hdepth, bind, Except.bind]
  rw [hel]
  simp [hend, pure, Except.pure]

def itemsTail (level : Nat) : List Value → String
  | [] => "\n" ++ pad level
  | w :: ws => ",\n" ++ pad (level + 1) ++ pretty (level + 1) w ++ itemsTail level ws

theorem prettyItems_close (level : Nat) (w : Value) (ws : List Value) :
    (prettyItems (level + 1) (w :: ws) ++ "\n" ++ pad level).toList =
      (pad (level + 1) ++ pretty (level + 1) w ++ itemsTail level ws).toList := by
  induction ws generalizing w with
  | nil => simp [prettyItems, itemsTail]
  | cons w' ws ih =>
    simp at ih
    simp [prettyItems, itemsTail, ih]

theorem ends_itemsTail (level : Nat) (ws : List Value) (rest : List Char) :
    Ends ((itemsTail level ws).toList ++ rest) := by
  cases ws <;> simp [Ends, itemsTail]

@[simp] theorem length_pad (n : Nat) : (pad n).length = 2 * n := by
  simp [pad, String.length_ofList]

theorem blanks_newline_pad (n : Nat) : ∀ x ∈ '\n' :: (pad n).toList, IsBlank x := by
  intro x hx
  rcases List.mem_cons.mp hx with rfl | hx
  · exact .inr (.inr (.inl rfl))
  · exact blank_of_mem_pad hx

theorem readElements_later (level d : Nat) (ws : List Value) (hws : ∀ w ∈ ws, ReadsBack d w)
    (ih : ∀ w ∈ ws, ReadsFrom d w) (fuel : Nat) (c : Cursor) (acc : List Value) (rest : List Char)
    (hc : c.rest = (itemsTail level ws).toList ++ ']' :: rest) (hdepth : d < c.depth)
    (hfuel : (itemsTail level ws).length < fuel) :
    ∃ c', readElements fuel c acc false = .ok (acc.reverse ++ ws, c') ∧ c'.rest = ']' :: rest ∧
      c'.depth = c.depth := by
  induction ws generalizing fuel c acc with
  | nil =>
    obtain ⟨f, rfl⟩ : ∃ f, fuel = f + 1 := ⟨fuel - 1, by omega⟩
    obtain ⟨c', hn, hr, hd⟩ := nextElement_close (c := c) (w := '\n' :: (pad level).toList)
      (r := rest) (by simp [hc, itemsTail]) (blanks_newline_pad level) false
    exact ⟨c', by rw [readElements_stop hn]; simp, hr, hd⟩
  | cons w ws ihws =>
    obtain ⟨f, rfl⟩ : ∃ f, fuel = f + 1 := ⟨fuel - 1, by omega⟩
    obtain ⟨ch, r, hpw, hst⟩ := pretty_eq_cons (hws w (by simp)) (level + 1)
    have hlen : (itemsTail level (w :: ws)).length =
        2 + 2 * (level + 1) + (pretty (level + 1) w).length + (itemsTail level ws).length := by
      have h2 : ",\n".length = 2 := by decide
      simp only [itemsTail, String.length_append, length_pad, h2]
    obtain ⟨c₁, hn, hr₁, hd₁⟩ := nextElement_comma (w := '\n' :: (pad (level + 1)).toList)
      (r := r ++ (itemsTail level ws).toList ++ ']' :: rest) (c := c)
      (by simp [hc, itemsTail, hpw]) (blanks_newline_pad _) hst
    obtain ⟨c₂, hv, hr₂, hd₂⟩ := ih w (by simp) (level + 1) f c₁ ((itemsTail level ws).toList ++ ']' :: rest)
      (by simp [hr₁, hpw]) (by omega) (by omega) (ends_itemsTail _ _ _)
    obtain ⟨c₃, he, hr₃, hd₃⟩ := ihws (fun w hw => hws w (by simp [hw])) (fun w hw => ih w (by simp [hw]))
      f c₂ (w :: acc) hr₂ (by omega) (by omega)
    refine ⟨c₃, ?_, hr₃, by omega⟩
    rw [readElements_more hn hv, he]
    simp

theorem pretty_array_cons (level : Nat) (w : Value) (ws : List Value) :
    (pretty level (.array (w :: ws))).toList =
      '[' :: '\n' :: ((pad (level + 1)).toList ++ (pretty (level + 1) w).toList ++
        (itemsTail level ws).toList ++ [']']) := by
  have h := prettyItems_close level w ws
  simp only [String.toList_append] at h
  simp [pretty, ← h]

theorem readsFrom_array (d : Nat) (vs : List Value) (hvs : ∀ v ∈ vs, ReadsBack d v)
    (ih : ∀ v ∈ vs, ReadsFrom d v) : ReadsFrom (d + 1) (.array vs) := by
  intro level fuel c rest hc hdepth hfuel _
  obtain ⟨fuel, rfl⟩ : ∃ f, fuel = f + 1 := ⟨fuel - 1, by omega⟩
  cases vs with
  | nil =>
    have h2 : (pretty level (.array [])).length = 2 := by simp only [pretty]; decide
    obtain ⟨fuel, rfl⟩ : ∃ f, fuel = f + 1 := ⟨fuel - 1, by omega⟩
    obtain ⟨d₀, hr₀, hd₀, hread⟩ := readValue_array (c := c) (n := fuel + 1) (r := ']' :: rest)
      (by simp [hc, pretty]) (by omega)
    obtain ⟨d₁, hn, hr₁, hd₁⟩ := nextElement_close (c := d₀) (w := []) (r := rest) (by simp [hr₀])
      (by simp) true
    refine ⟨(leave d₁).bump, hread [] d₁ _ (readElements_stop hn) (endArray_close (r := rest) (by simp [leave, hr₁])),
      by simp [leave, hr₁], ?_⟩
    simp [leave]
    omega
  | cons w ws =>
    obtain ⟨ch, r, hpw, hst⟩ := pretty_eq_cons (hvs w (by simp)) (level + 1)
    have hlen : (pretty level (.array (w :: ws))).length =
        3 + 2 * (level + 1) + (pretty (level + 1) w).length + (itemsTail level ws).length := by
      rw [← String.length_toList, pretty_array_cons]
      simp only [List.length_cons, List.length_nil, List.length_append, String.length_toList, length_pad]
      omega
    obtain ⟨fuel, rfl⟩ : ∃ f, fuel = f + 1 := ⟨fuel - 1, by omega⟩
    obtain ⟨d₀, hr₀, hd₀, hread⟩ := readValue_array (c := c) (n := fuel + 1)
      (r := '\n' :: (pad (level + 1)).toList ++ ch :: (r ++ (itemsTail level ws).toList ++ ']' :: rest))
      (by simp [hc, pretty_array_cons, hpw]) (by omega)
    obtain ⟨d₁, hn, hr₁, hd₁⟩ := nextElement_first (c := d₀) hr₀ (blanks_newline_pad _) hst
    obtain ⟨d₂, hv, hr₂, hd₂⟩ := ih w (by simp) (level + 1) fuel d₁
      ((itemsTail level ws).toList ++ ']' :: rest) (by simp [hr₁, hpw]) (by omega) (by omega)
      (ends_itemsTail _ _ _)
    obtain ⟨d₃, he, hr₃, hd₃⟩ := readElements_later level d ws (fun v hv => hvs v (by simp [hv]))
      (fun v hv => ih v (by simp [hv])) fuel d₂ [w] rest hr₂ (by omega) (by omega)
    refine ⟨(leave d₃).bump, hread _ d₃ _ ?_ (endArray_close (r := rest) (by simp [leave, hr₃])),
      by simp [leave, hr₃], ?_⟩
    · rw [readElements_more hn hv, he]
      simp
    · simp [leave]
      omega

/-! ### Objects -/

theorem setField_fresh {fs : List (String × Value)} {k : String} (h : k ∉ fs.map Prod.fst) (v : Value) :
    Value.setField fs k v = fs ++ [(k, v)] := by
  have hany : fs.any (fun p => p.1 == k) = false := by
    simp only [List.any_eq_false, beq_iff_eq]
    intro p hp hpk
    exact h (List.mem_map.mpr ⟨p, hp, hpk⟩)
  simp [Value.setField, hany]

theorem readKey_quote (k : String) {c : Cursor} {r : List Char} (h : c.rest = (quote k).toList ++ r) :
    ∃ c', readKey c = .ok (k, c') ∧ c'.rest = r ∧ c'.depth = c.depth := by
  have hq : c.rest = '"' :: ((k.toList.flatMap fun ch => (escapeChar ch).toList) ++ '"' :: r) := by
    simp [h, quote_toList]
  obtain ⟨c', h', hr', hd'⟩ := readStringBody_escaped k.toList (c := c.bump) (r := r) (by simp [hq]) []
  exact ⟨c', by simpa [readKey] using h', hr', by simpa using hd'⟩

theorem readColon_colon {c : Cursor} {r : List Char} (h : c.rest = ':' :: r) : readColon c = .ok c.bump := by
  have hs : c.skipBlank = c := Cursor.skipBlank_eq_self (by
    intro ch r' h'
    obtain ⟨rfl, -⟩ := List.cons.inj (h.symm.trans h')
    decide)
  simp [readColon, hs, h]

theorem endObject_close {c : Cursor} {r : List Char} (h : c.rest = '\x7d' :: r) : endObject c = .ok c.bump := by
  have hs : c.skipBlank = c := Cursor.skipBlank_eq_self (by
    intro ch r' h'
    obtain ⟨rfl, -⟩ := List.cons.inj (h.symm.trans h')
    decide)
  simp [endObject, hs, h]

theorem nextKey_close {c : Cursor} {w r : List Char} (hc : c.rest = w ++ '\x7d' :: r)
    (hws : ∀ x ∈ w, IsBlank x) (first : Bool) :
    ∃ c', nextKey c first = .ok (false, c') ∧ c'.rest = '\x7d' :: r ∧ c'.depth = c.depth := by
  obtain ⟨hr, hd⟩ := skipBlank_blanks hc hws (by decide)
  exact ⟨c.skipBlank, by simp [nextKey, hr], hr, hd⟩

theorem nextKey_first {c : Cursor} {ws r : List Char} {k : String} (hc : c.rest = ws ++ (quote k).toList ++ r)
    (hws : ∀ x ∈ ws, IsBlank x) :
    ∃ c', nextKey c true = .ok (true, c') ∧ c'.rest = (quote k).toList ++ r ∧ c'.depth = c.depth := by
  rw [quote_toList] at hc ⊢
  obtain ⟨hr, hd⟩ := skipBlank_blanks (e := '"') (by simpa using hc) hws (by decide)
  exact ⟨c.skipBlank, by simp [nextKey, hr], by simpa using hr, hd⟩

theorem nextKey_comma {c : Cursor} {w r : List Char} {k : String}
    (hc : c.rest = ',' :: (w ++ (quote k).toList ++ r)) (hws : ∀ x ∈ w, IsBlank x) :
    ∃ c', nextKey c false = .ok (true, c') ∧ c'.rest = (quote k).toList ++ r ∧ c'.depth = c.depth := by
  rw [quote_toList] at hc ⊢
  have hs : c.skipBlank = c := Cursor.skipBlank_eq_self (by
    intro x r' h'
    obtain ⟨rfl, -⟩ := List.cons.inj (hc.symm.trans h')
    decide)
  obtain ⟨hr, hd⟩ := skipBlank_blanks (c := c.bump) (e := '"')
    (r := (k.toList.flatMap fun ch => (escapeChar ch).toList) ++ '"' :: r) (by simp [hc]) hws (by decide)
  exact ⟨c.bump.skipBlank, by simp [nextKey, hs, hc, hr], by simpa using hr, by simpa using hd⟩

theorem readMembers_stop {fuel : Nat} {c c' : Cursor} {acc : List (String × Value)} {first : Bool}
    (h : nextKey c first = .ok (false, c')) :
    readMembers (fuel + 1) c acc first = .ok (acc, c') := by
  simp [readMembers, h, bind, Except.bind, pure, Except.pure]

theorem readMembers_member {d l n : Nat} {c c₁ : Cursor} {a : List (String × Value)}
    {first : Bool} {k : String} {v : Value} {r : List Char} (hv : ReadsFrom d v)
    (hn : nextKey c first = .ok (true, c₁))
    (hc : c₁.rest = (quote k).toList ++ ':' :: ' ' :: ((pretty l v).toList ++ r))
    (hdepth : d < c₁.depth) (hfuel : (pretty l v).length < n) (hends : Ends r) :
    ∃ c', readMembers (n + 1 + 1) c a first = readMembers (n + 1) c' (Value.setField a k v) false ∧
      c'.rest = r ∧ c'.depth = c₁.depth := by
  obtain ⟨c₂, hk, hr₂, hd₂⟩ := readKey_quote k hc
  have hcolon := readColon_colon hr₂
  have hblank : readValue (n + 1) c₂.bump = readValue (n + 1) c₂.bump.bump :=
    readValue_blank (e := ' ') (r := (pretty l v).toList ++ r) (by simp [hr₂]) (.inl rfl)
  obtain ⟨c₃, hv', hr₃, hd₃⟩ := hv l (n + 1) c₂.bump.bump r (by simp [hr₂])
    (by simp [hd₂, hdepth]) (by omega) hends
  refine ⟨c₃, ?_, hr₃, by simp [hd₃, hd₂]⟩
  simp [readMembers, hn, hk, hcolon, hblank, hv', bind, Except.bind]

def fieldsTail (level : Nat) : List (String × Value) → String
  | [] => "\n" ++ pad level
  | (k, v) :: fs => ",\n" ++ pad (level + 1) ++ quote k ++ ": " ++ pretty (level + 1) v ++ fieldsTail level fs

theorem prettyFields_close (level : Nat) (k : String) (v : Value) (fs : List (String × Value)) :
    (prettyFields (level + 1) ((k, v) :: fs) ++ "\n" ++ pad level).toList =
      (pad (level + 1) ++ quote k ++ ": " ++ pretty (level + 1) v ++ fieldsTail level fs).toList := by
  induction fs generalizing k v with
  | nil => simp [prettyFields, fieldsTail]
  | cons f fs ih =>
    obtain ⟨k', v'⟩ := f
    simp at ih
    simp [prettyFields, fieldsTail, ih]

theorem ends_fieldsTail (level : Nat) (fs : List (String × Value)) (rest : List Char) :
    Ends ((fieldsTail level fs).toList ++ rest) := by
  cases fs <;> simp [Ends, fieldsTail]

theorem pretty_object_cons (level : Nat) (k : String) (v : Value) (fs : List (String × Value)) :
    (pretty level (.object ((k, v) :: fs))).toList =
      '\x7b' :: '\n' :: ((pad (level + 1)).toList ++ (quote k).toList ++ ':' :: ' ' ::
        ((pretty (level + 1) v).toList ++ (fieldsTail level fs).toList ++ ['\x7d'])) := by
  have h := congrArg (· ++ ['\x7d']) (prettyFields_close level k v fs)
  simp at h
  simpa [pretty] using h

theorem readValue_object {n : Nat} {c : Cursor} {r : List Char} (h : c.rest = '\x7b' :: r)
    (hdepth : 1 < c.depth) :
    ∃ d₀ : Cursor, d₀.rest = r ∧ d₀.depth = c.depth - 1 ∧ ∀ fields d₁ d₂,
      readMembers n d₀ [] true = .ok (fields, d₁) → endObject (leave d₁) = .ok d₂ →
      readValue (n + 1) c = .ok (.object fields, d₂) := by
  refine ⟨{ c.bump with depth := c.depth - 1 }, by simp [h], rfl, ?_⟩
  intro fields d₁ d₂ hrm hend
  rw [readValue, skipBlank_of_head h (by simp)]
  simp only [h, enter_ok hdepth, bind, Except.bind]
  rw [hrm]
  simp [hend, pure, Except.pure]

theorem readMembers_later (level d : Nat) (fs : List (String × Value)) (hfs : ∀ p ∈ fs, ReadsBack d p.2)
    (ih : ∀ p ∈ fs, ReadsFrom d p.2) (hkeys : (fs.map Prod.fst).Nodup) (fuel : Nat) (c : Cursor)
    (acc : List (String × Value)) (rest : List Char) (hfresh : ∀ p ∈ fs, p.1 ∉ acc.map Prod.fst)
    (hc : c.rest = (fieldsTail level fs).toList ++ '\x7d' :: rest) (hdepth : d < c.depth)
    (hfuel : (fieldsTail level fs).length < fuel) :
    ∃ c', readMembers fuel c acc false = .ok (acc ++ fs, c') ∧ c'.rest = '\x7d' :: rest ∧
      c'.depth = c.depth := by
  induction fs generalizing fuel c acc with
  | nil =>
    obtain ⟨f, rfl⟩ : ∃ f, fuel = f + 1 := ⟨fuel - 1, by omega⟩
    obtain ⟨c', hn, hr, hd⟩ := nextKey_close (c := c) (w := '\n' :: (pad level).toList)
      (r := rest) (by simp [hc, fieldsTail]) (blanks_newline_pad level) false
    exact ⟨c', by rw [readMembers_stop hn]; simp, hr, hd⟩
  | cons p fs ihfs =>
    obtain ⟨k, v⟩ := p
    have hlen : (fieldsTail level ((k, v) :: fs)).length =
        4 + 2 * (level + 1) + (quote k).length + (pretty (level + 1) v).length +
          (fieldsTail level fs).length := by
      have h2 : ",\n".length = 2 := by decide
      have h2' : ": ".length = 2 := by decide
      simp only [fieldsTail, String.length_append, length_pad, h2, h2']
      omega
    obtain ⟨f, rfl⟩ : ∃ f, fuel = f + 1 + 1 := ⟨fuel - 2, by omega⟩
    obtain ⟨c₁, hn, hr₁, hd₁⟩ := nextKey_comma (c := c) (w := '\n' :: (pad (level + 1)).toList) (k := k)
      (r := ':' :: ' ' :: ((pretty (level + 1) v).toList ++ (fieldsTail level fs).toList ++ '\x7d' :: rest))
      (by simp [hc, fieldsTail]) (blanks_newline_pad _)
    obtain ⟨c₂, hm, hr₂, hd₂⟩ := readMembers_member (a := acc) (k := k) (v := v) (l := level + 1) (n := f)
      (r := (fieldsTail level fs).toList ++ '\x7d' :: rest) (ih (k, v) (by simp)) hn (by simp [hr₁])
      (by omega) (by omega) (ends_fieldsTail _ _ _)
    have hk : k ∉ acc.map Prod.fst := hfresh (k, v) (by simp)
    have hkeys' : k ∉ fs.map Prod.fst ∧ (fs.map Prod.fst).Nodup := by simpa using hkeys
    have hfresh' : ∀ p ∈ fs, p.1 ∉ (acc ++ [(k, v)]).map Prod.fst := by
      intro p hp
      have hpk : p.1 ≠ k := fun h => hkeys'.1 (List.mem_map.mpr ⟨p, hp, h⟩)
      simpa [hpk] using hfresh p (by simp [hp])
    obtain ⟨c₃, he, hr₃, hd₃⟩ := ihfs (fun p hp => hfs p (by simp [hp])) (fun p hp => ih p (by simp [hp]))
      hkeys'.2 (f + 1) c₂ (acc ++ [(k, v)]) hfresh' hr₂ (by omega) (by omega)
    refine ⟨c₃, ?_, hr₃, by omega⟩
    rw [hm, setField_fresh hk, he]
    simp

theorem readsFrom_object (d : Nat) (fs : List (String × Value)) (hkeys : (fs.map Prod.fst).Nodup)
    (hfs : ∀ p ∈ fs, ReadsBack d p.2) (ih : ∀ p ∈ fs, ReadsFrom d p.2) :
    ReadsFrom (d + 1) (.object fs) := by
  intro level fuel c rest hc hdepth hfuel _
  obtain ⟨fuel, rfl⟩ : ∃ f, fuel = f + 1 := ⟨fuel - 1, by omega⟩
  cases fs with
  | nil =>
    have h2 : (pretty level (.object [])).length = 2 := by simp only [pretty]; decide
    obtain ⟨fuel, rfl⟩ : ∃ f, fuel = f + 1 := ⟨fuel - 1, by omega⟩
    obtain ⟨d₀, hr₀, hd₀, hread⟩ := readValue_object (c := c) (n := fuel + 1) (r := '\x7d' :: rest)
      (by simp [hc, pretty]) (by omega)
    obtain ⟨d₁, hn, hr₁, hd₁⟩ := nextKey_close (c := d₀) (w := []) (r := rest) (by simp [hr₀])
      (by simp) true
    refine ⟨(leave d₁).bump, hread [] d₁ _ (readMembers_stop hn)
      (endObject_close (r := rest) (by simp [leave, hr₁])), by simp [leave, hr₁], ?_⟩
    simp [leave]
    omega
  | cons p fs =>
    obtain ⟨k, v⟩ := p
    have hlen : (pretty level (.object ((k, v) :: fs))).length =
        5 + 2 * (level + 1) + (quote k).length + (pretty (level + 1) v).length +
          (fieldsTail level fs).length := by
      rw [← String.length_toList, pretty_object_cons]
      simp only [List.length_cons, List.length_nil, List.length_append, String.length_toList, length_pad]
      omega
    obtain ⟨fuel, rfl⟩ : ∃ f, fuel = f + 1 + 1 := ⟨fuel - 2, by omega⟩
    obtain ⟨d₀, hr₀, hd₀, hread⟩ := readValue_object (c := c) (n := fuel + 1 + 1)
      (r := '\n' :: (pad (level + 1)).toList ++ (quote k).toList ++ ':' :: ' ' ::
        ((pretty (level + 1) v).toList ++ (fieldsTail level fs).toList ++ '\x7d' :: rest))
      (by simp [hc, pretty_object_cons]) (by omega)
    obtain ⟨d₁, hn, hr₁, hd₁⟩ := nextKey_first (c := d₀) hr₀ (blanks_newline_pad _)
    obtain ⟨d₂, hm, hr₂, hd₂⟩ := readMembers_member (a := []) (k := k) (v := v) (l := level + 1) (n := fuel)
      (r := (fieldsTail level fs).toList ++ '\x7d' :: rest) (ih (k, v) (by simp)) hn (by simp [hr₁])
      (by omega) (by omega) (ends_fieldsTail _ _ _)
    have hkeys' : k ∉ fs.map Prod.fst ∧ (fs.map Prod.fst).Nodup := by simpa using hkeys
    have hfresh : ∀ p ∈ fs, p.1 ∉ [(k, v)].map Prod.fst := by
      intro p hp
      have hpk : p.1 ≠ k := fun h => hkeys'.1 (List.mem_map.mpr ⟨p, hp, h⟩)
      simpa using hpk
    obtain ⟨d₃, he, hr₃, hd₃⟩ := readMembers_later level d fs (fun p hp => hfs p (by simp [hp]))
      (fun p hp => ih p (by simp [hp])) hkeys'.2 (fuel + 1) d₂ [(k, v)] rest
      hfresh hr₂ (by omega) (by omega)
    refine ⟨(leave d₃).bump, hread _ d₃ _ ?_ (endObject_close (r := rest) (by simp [leave, hr₃])),
      by simp [leave, hr₃], ?_⟩
    · rw [hm, setField_fresh (by simp), List.nil_append, he]
      simp
    · simp [leave]
      omega

theorem pretty_array_toList (level : Nat) (vs : List Value) :
    ∃ t, (pretty level (.array vs)).toList = t ++ [']'] := by
  cases vs with
  | nil => exact ⟨['['], by simp only [pretty]; rfl⟩
  | cons v vs =>
    exact ⟨'[' :: '\n' :: ((prettyItems (level + 1) (v :: vs)).toList ++ '\n' :: (pad level).toList),
      by simp [pretty]⟩

theorem ReadsBack.readsFrom {d : Nat} {v : Value} (h : ReadsBack d v) : ReadsFrom d v := by
  induction h with
  | null d => exact readsFrom_null d
  | bool d b => exact readsFrom_bool d b
  | nat d n hn => exact readsFrom_nat d n hn
  | negInt d i hneg hmin => exact readsFrom_negInt d i hneg hmin
  | string d s => exact readsFrom_string d s
  | array d vs _ ih => exact readsFrom_array d vs (by assumption) ih
  | object d fs keys _ ih => exact readsFrom_object d fs keys (by assumption) ih

theorem ReadsBack.mono {d : Nat} {v : Value} (h : ReadsBack d v) {d' : Nat} (hd : d ≤ d') :
    ReadsBack d' v := by
  induction h generalizing d' with
  | null => exact .null d'
  | bool _ b => exact .bool d' b
  | nat _ n hn => exact .nat d' n hn
  | negInt _ i hneg hmin => exact .negInt d' i hneg hmin
  | string _ s => exact .string d' s
  | array d vs _ ih =>
    obtain ⟨d', rfl⟩ : ∃ e, d' = e + 1 := ⟨d' - 1, by omega⟩
    exact .array d' vs fun v hv => ih v hv (by omega)
  | object d fs keys _ ih =>
    obtain ⟨d', rfl⟩ : ∃ e, d' = e + 1 := ⟨d' - 1, by omega⟩
    exact .object d' fs keys fun p hp => ih p hp (by omega)

theorem parse_write_append {v : Value} (hv : ReadsBack 127 v) {s : String}
    (hblank : ∀ ch ∈ s.toList, IsBlank ch) (hends : Ends s.toList) : parse (write v ++ s) = .ok v := by
  let c := Cursor.ofString (write v ++ s)
  have hc : c.rest = (pretty 0 v).toList ++ s.toList := by simp [c, Cursor.ofString, write]
  have hfuel : (pretty 0 v).length < fuelFor c := by
    simp only [fuelFor, hc, List.length_append, String.length_toList]
    omega
  have hdepth : c.depth = 128 := rfl
  obtain ⟨c', hread, hr, -⟩ := hv.readsFrom 0 (fuelFor c) c s.toList hc (by omega) hfuel hends
  obtain ⟨hskip, -⟩ := Cursor.skipBlank_append (c := c') (s := []) (by simp [hr]) hblank (by simp)
  simp [parse, c, hread, finish, hskip, bind, Except.bind, pure, Except.pure]

end Json

end ConfigTabs
