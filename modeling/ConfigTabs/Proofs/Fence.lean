import ConfigTabs.Emit.Markup
/-!
Fences of markdown code blocks are longer than every run of backticks in the body, so a body
is closed by its own fence only.
-/
namespace ConfigTabs

open List

/-! ### Pieces of a cut list -/

section Pieces

variable {α : Type} {p : α → Bool}

theorem splitOnP_first_prefix (l : List α) :
    ∃ h t, l.splitOnP p = h :: t ∧ h <+: l ∧ ∀ q ∈ t, q <:+: l := by
  induction l with
  | nil => exact ⟨[], [], rfl, prefix_rfl, by simp⟩
  | cons x xs ih =>
    obtain ⟨h, t, heq, hpre, hrest⟩ := ih
    rw [splitOnP_cons_eq_if_modifyHead, heq]
    by_cases hx : p x = true
    · refine ⟨[], h :: t, by simp [hx], nil_prefix, ?_⟩
      intro q hq
      rcases mem_cons.mp hq with rfl | hq
      · exact hpre.isInfix.trans (infix_cons infix_rfl)
      · exact (hrest q hq).trans (infix_cons infix_rfl)
    · refine ⟨x :: h, t, by simp [hx], cons_prefix_cons.mpr ⟨rfl, hpre⟩, ?_⟩
      intro q hq
      exact (hrest q hq).trans (infix_cons infix_rfl)

theorem infix_of_mem_splitOnP {q l : List α} (hq : q ∈ l.splitOnP p) : q <:+: l := by
  obtain ⟨h, t, heq, hpre, hrest⟩ := splitOnP_first_prefix (p := p) l
  rw [heq] at hq
  rcases mem_cons.mp hq with rfl | hq
  · exact hpre.isInfix
  · exact hrest q hq

theorem clear_of_mem_splitOnP {q : List α} : ∀ {l : List α}, q ∈ l.splitOnP p → ∀ x ∈ q, p x = false
  | [], hq => by simp_all
  | x :: xs, hq => by
    obtain ⟨h, t, heq⟩ := exists_cons_of_ne_nil (splitOnP_ne_nil p xs)
    have ih : ∀ r ∈ h :: t, ∀ y ∈ r, p y = false := fun r hr => clear_of_mem_splitOnP (heq ▸ hr)
    rw [splitOnP_cons_eq_if_modifyHead, heq] at hq
    by_cases hx : p x = true
    · simp only [hx, if_true, mem_cons] at hq
      rcases hq with rfl | hq
      · simp
      · exact ih q (mem_cons.mpr hq)
    · simp only [hx, Bool.false_eq_true, if_false, modifyHead_cons, mem_cons] at hq
      rcases hq with rfl | hq
      · intro y hy
        rcases mem_cons.mp hy with rfl | hy
        · simpa using hx
        · exact ih h mem_cons_self y hy
      · exact ih q (mem_cons_of_mem h hq)

theorem splitOnP_covers (l : List α) :
    ∃ h t, l.splitOnP p = h :: t ∧ (∀ u, u <+: l → (∀ x ∈ u, p x = false) → u <+: h) ∧
      ∀ u, u <:+: l → (∀ x ∈ u, p x = false) → ∃ q ∈ h :: t, u <:+: q := by
  induction l with
  | nil =>
    refine ⟨[], [], rfl, fun u hu _ => hu, fun u hu _ => ⟨[], mem_singleton_self _, hu⟩⟩
  | cons x xs ih =>
    obtain ⟨h, t, heq, hpre, hinf⟩ := ih
    rw [splitOnP_cons_eq_if_modifyHead, heq]
    -- a stretch either starts at `x`, or lies in the rest of the list
    by_cases hx : p x = true
    · have hstart : ∀ u, u <+: x :: xs → (∀ y ∈ u, p y = false) → u = [] := by
        intro u hu hc
        rcases prefix_cons_iff.mp hu with rfl | ⟨v, rfl, -⟩
        · rfl
        · simp [hc x mem_cons_self] at hx
      refine ⟨[], h :: t, by simp [hx], fun u hu hc => by simp [hstart u hu hc], ?_⟩
      intro u hu hc
      rcases infix_cons_iff.mp hu with hu | hu
      · exact ⟨[], mem_cons_self, by simp [hstart u hu hc]⟩
      · obtain ⟨q, hq, huq⟩ := hinf u hu hc
        exact ⟨q, mem_cons_of_mem _ hq, huq⟩
    · have hstart : ∀ u, u <+: x :: xs → (∀ y ∈ u, p y = false) → u <+: x :: h := by
        intro u hu hc
        rcases prefix_cons_iff.mp hu with rfl | ⟨v, rfl, hv⟩
        · exact nil_prefix
        · exact cons_prefix_cons.mpr ⟨rfl, hpre v hv fun y hy => hc y (mem_cons_of_mem x hy)⟩
      refine ⟨x :: h, t, by simp [hx], hstart, ?_⟩
      intro u hu hc
      rcases infix_cons_iff.mp hu with hu | hu
      · exact ⟨x :: h, mem_cons_self, (hstart u hu hc).isInfix⟩
      · obtain ⟨q, hq, huq⟩ := hinf u hu hc
        rcases mem_cons.mp hq with rfl | hq
        · exact ⟨x :: q, mem_cons_self, huq.trans (infix_cons infix_rfl)⟩
        · exact ⟨q, mem_cons_of_mem _ hq, huq⟩

theorem exists_piece_of_infix {u l : List α} (hu : u <:+: l) (hc : ∀ x ∈ u, p x = false) :
    ∃ q ∈ l.splitOnP p, u <:+: q := by
  obtain ⟨h, t, heq, -, hinf⟩ := splitOnP_covers (p := p) l
  rw [heq]
  exact hinf u hu hc

end Pieces

/-! ### Runs of backticks -/

theorem tickRun_iff_piece (cs : List Char) (n : Nat) :
    replicate n '`' <:+: cs ↔ ∃ q ∈ cs.splitOnP (· != '`'), n ≤ q.length := by
  constructor
  · intro hrun
    obtain ⟨q, hq, hin⟩ := exists_piece_of_infix hrun (p := (· != '`')) (by simp [mem_replicate])
    exact ⟨q, hq, by simpa using hin.length_le⟩
  · rintro ⟨q, hq, hn⟩
    -- a piece is all backticks, so the shorter run starts it
    have hticks : q = replicate q.length '`' :=
      eq_replicate_iff.mpr ⟨rfl, fun c hc => by simpa using clear_of_mem_splitOnP hq c hc⟩
    have hpre : replicate n '`' <+: q := by
      rw [hticks]
      exact prefix_replicate_iff.mpr ⟨by simpa using hn, by simp⟩
    exact hpre.isInfix.trans (infix_of_mem_splitOnP hq)

theorem longestTickRun_longest (cs : List Char) :
    replicate (longestTickRun cs) '`' <:+: cs ∧ ∀ n, replicate n '`' <:+: cs → n ≤ longestTickRun cs := by
  have hne : (cs.splitOnP (· != '`')).map length ≠ [] := by simp
  have hmax : longestTickRun cs = ((cs.splitOnP (· != '`')).map length).max hne := by
    rw [longestTickRun, foldl_max_eq_max hne, Nat.zero_max]
  constructor
  · obtain ⟨q, hq, hlen⟩ := mem_map.mp (max_mem hne)
    exact (tickRun_iff_piece cs _).mpr ⟨q, hq, by omega⟩
  · intro n hn
    obtain ⟨q, hq, hle⟩ := (tickRun_iff_piece cs n).mp hn
    rw [hmax]
    exact Nat.le_trans hle (le_max_of_mem (mem_map_of_mem hq))

theorem toList_fenceFor (body : String) :
    (fenceFor body).toList = replicate (max (longestTickRun body.toList) 2 + 1) '`' := by
  rw [fenceFor, String.toList_ofList]

theorem fence_not_infix_body (body : String) : ¬ (fenceFor body).toList <:+: body.toList := by
  rw [toList_fenceFor]
  intro h
  have hle := (longestTickRun_longest body.toList).2 _ h
  generalize longestTickRun body.toList = L at hle
  omega

/-! ### Blocks in the `markdown` text -/

theorem infix_intercalate_of_mem {α : Type} (sep : List α) {l : List α} :
    ∀ {L : List (List α)}, l ∈ L → l <:+: sep.intercalate L
  | [], h => by simp at h
  | [m], h => by
    simp only [mem_singleton.mp h, intercalate_singleton, infix_rfl]
  | m :: m' :: ms, h => by
    rw [intercalate_cons_cons]
    rcases mem_cons.mp h with rfl | h
    · exact infix_append_left.trans (infix_append_of_infix_left infix_rfl)
    · exact (infix_intercalate_of_mem sep h).trans infix_append_right

theorem infix_intercalate_map {blocks : List Block} {b : Block} (seg : Block → String) (sep : String)
    (hb : b ∈ blocks) : (seg b).toList <:+: (sep.intercalate (blocks.map seg)).toList := by
  rw [String.toList_intercalate, map_map]
  exact infix_intercalate_of_mem _ (mem_map_of_mem (f := String.toList ∘ seg) hb)

theorem body_lines_in_markdownText {blocks : List Block} {b : Block} (hb : b ∈ blocks) :
    ∃ pre post, (markdownText blocks).toList =
      pre ++ '\n' :: b.body.toList ++ '\n' :: (fenceFor b.body).toList ++ '\n' :: post := by
  obtain ⟨pre, post, h⟩ : _ <:+: (markdownText blocks).toList := infix_intercalate_map _ "\n" hb
  refine ⟨pre ++ (fenceFor b.body ++ b.format.name ++ " title=\"" ++
    String.join (b.title.toList.map fun c => if c == '"' then "\\\"" else String.singleton c) ++
    "\"").toList, post, ?_⟩
  rw [← h]
  simp [String.toList_append]

/-- A fence is backticks only, one longer than the longest run of backticks in its body and at
least three long; so in the `markdown` text no line of a block's body, indented or not, starts
with a run of backticks as long as that block's fence. -/
theorem markdown_fence_outlasts_body :
    (∀ body : String, (∀ c ∈ (fenceFor body).toList, c = '`') ∧
      ∃ L, replicate L '`' <:+: body.toList ∧ (∀ n, replicate n '`' <:+: body.toList → n ≤ L) ∧
        (fenceFor body).length = max 3 (L + 1)) ∧
    ∀ blocks : List Block, ∀ b ∈ blocks,
      (∃ pre post, (markdownText blocks).toList =
        pre ++ '\n' :: b.body.toList ++ '\n' :: (fenceFor b.body).toList ++ '\n' :: post) ∧
      ∀ line ∈ b.body.toList.splitOn '\n', ∀ k ≤ 3,
        ¬ replicate k ' ' ++ (fenceFor b.body).toList <+: line := by
  refine ⟨fun body => ⟨?_, longestTickRun body.toList, (longestTickRun_longest _).1,
    (longestTickRun_longest _).2, ?_⟩, fun blocks b hb => ⟨body_lines_in_markdownText hb, ?_⟩⟩
  · intro c hc
    rw [toList_fenceFor] at hc
    exact eq_of_mem_replicate hc
  · rw [← String.length_toList, toList_fenceFor, length_replicate]
    omega
  · -- a line is a stretch of the body, and the fence would be a stretch of that line
    intro line hline k _ hpre
    have hin : line <:+: b.body.toList := infix_of_mem_splitOnP (p := (· == '\n')) hline
    exact fence_not_infix_body b.body ((infix_append_right.trans hpre.isInfix).trans hin)

end ConfigTabs
