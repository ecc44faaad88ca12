import ConfigTabs.Emit.Markup
import ConfigTabs.Proofs.JsonRoundTrip
/-!
Reading `mdx` tabs back as a page renderer does, and the `json` text as block records.
-/
namespace ConfigTabs.Mdx

def expect : List Char → List Char → Option (List Char)
  | [], cs => some cs
  | c :: lit, d :: cs => if c = d then expect lit cs else none
  | _ :: _, [] => none

def readAttribute : List Char → Option (List Char × List Char)
  | [] => none
  | '"' :: rest => some ([], rest)
  | c :: cs => (readAttribute cs).map fun (v, rest) => (c :: v, rest)

def decodeEntities : List Char → List Char
  | '&' :: 'a' :: 'm' :: 'p' :: ';' :: cs => '&' :: decodeEntities cs
  | '&' :: 'q' :: 'u' :: 'o' :: 't' :: ';' :: cs => '"' :: decodeEntities cs
  | '&' :: 'l' :: 't' :: ';' :: cs => '<' :: decodeEntities cs
  | '&' :: 'g' :: 't' :: ';' :: cs => '>' :: decodeEntities cs
  | '&' :: '#' :: '1' :: '2' :: '3' :: ';' :: cs => '{' :: decodeEntities cs
  | '&' :: '#' :: '1' :: '2' :: '5' :: ';' :: cs => '}' :: decodeEntities cs
  | c :: cs => c :: decodeEntities cs
  | [] => []

def readTemplate : List Char → Option (List Char × List Char)
  | [] => none
  | '`' :: rest => some ([], rest)
  | '\\' :: c :: cs =>
    if c = '\\' ∨ c = '`' ∨ c = '$' then (readTemplate cs).map fun (v, rest) => (c :: v, rest)
    else none
  | '$' :: '{' :: _ => none
  | c :: cs => (readTemplate cs).map fun (v, rest) => (c :: v, rest)

structure Tab where
  value : String
  label : String
  isDefault : Bool
  title : String
  language : String
  body : String
  deriving DecidableEq, Repr

def readTab (cs : List Char) : Option (Tab × List Char) := do
  let cs ← expect "  <TabItem value=\"".toList cs
  let (value, cs) ← readAttribute cs
  let cs ← expect " label=\"".toList cs
  let (label, cs) ← readAttribute cs
  let (isDefault, cs) := match expect " default".toList cs with
    | some rest => (true, rest)
    | none => (false, cs)
  let cs ← expect ">\n    <CodeBlock title=\"".toList cs
  let (title, cs) ← readAttribute cs
  let cs ← expect " language=\"".toList cs
  let (language, cs) ← readAttribute cs
  let cs ← expect ">\x7b`".toList cs
  let (body, cs) ← readTemplate cs
  let cs ← expect "\x7d</CodeBlock>\n  </TabItem>\n".toList cs
  pure ({ value := String.ofList (decodeEntities value), label := String.ofList (decodeEntities label),
          isDefault, title := String.ofList (decodeEntities title),
          language := String.ofList (decodeEntities language), body := String.ofList body }, cs)

def readTabs : Nat → List Char → Option (List Tab)
  | 0, _ => none
  | fuel + 1, cs =>
    match expect "</Tabs>\n".toList cs with
    | some [] => some []
    | _ => do
      let (t, cs) ← readTab cs
      let ts ← readTabs fuel cs
      pure (t :: ts)

/-- Reads a whole `mdx` text. -/
def read (s : String) : Option (List Tab) := do
  let cs ← expect "<Tabs>\n".toList s.toList
  readTabs s.length cs

/-! ### Fixed texts and attributes -/

theorem expect_append (lit rest : List Char) : expect lit (lit ++ rest) = some rest := by
  induction lit with
  | nil => rfl
  | cons c lit ih => simp [expect, ih]

theorem expect_default_of_close (cs : List Char) (h : cs.head? = some '>') :
    expect " default".toList cs = none := by
  cases cs with
  | nil => simp at h
  | cons c cs =>
    simp only [List.head?_cons, Option.some.injEq] at h
    subst h
    rfl

theorem readAttribute_append {t : List Char} (h : '"' ∉ t) (rest : List Char) :
    readAttribute (t ++ '"' :: rest) = some (t, rest) := by
  induction t with
  | nil => rfl
  | cons c t ih =>
    have hc : c ≠ '"' := fun hc => h (hc ▸ List.mem_cons_self)
    have ht : '"' ∉ t := fun ht => h (List.mem_cons_of_mem c ht)
    rw [List.cons_append, readAttribute, ih ht]
    · rfl
    · exact hc

theorem decodeEntities_cons {c : Char} (h : c ≠ '&') (cs : List Char) :
    decodeEntities (c :: cs) = c :: decodeEntities cs := by
  rw [decodeEntities]
  all_goals simp_all

theorem escapeAttribute_toList (s : String) :
    (escapeAttribute s).toList =
      s.toList.flatMap fun c => (escapeAttribute (String.singleton c)).toList := by
  unfold escapeAttribute
  rw [toList_foldl_append]
  simp

theorem escapeAttribute_singleton (c : Char) :
    (escapeAttribute (String.singleton c)).toList =
      if c = '&' then "&amp;".toList else if c = '"' then "&quot;".toList
      else if c = '<' then "&lt;".toList else if c = '>' then "&gt;".toList
      else if c = '\x7b' then "&#123;".toList else if c = '\x7d' then "&#125;".toList else [c] := by
  unfold escapeAttribute
  simp only [String.toList_singleton, List.foldl_cons, List.foldl_nil]
  split <;> simp_all

theorem decodeEntities_escape (c : Char) (rest : List Char) :
    decodeEntities ((escapeAttribute (String.singleton c)).toList ++ rest) = c :: decodeEntities rest := by
  rw [escapeAttribute_singleton]
  by_cases h1 : c = '&'
  · subst h1; rfl
  by_cases h2 : c = '"'
  · subst h2; rfl
  by_cases h3 : c = '<'
  · subst h3; rfl
  by_cases h4 : c = '>'
  · subst h4; rfl
  by_cases h5 : c = '\x7b'
  · subst h5; rfl
  by_cases h6 : c = '\x7d'
  · subst h6; rfl
  simp only [h1, h2, h3, h4, h5, h6, if_false, List.singleton_append]
  exact decodeEntities_cons h1 rest

theorem decodeEntities_escapeAttribute (s : String) :
    decodeEntities (escapeAttribute s).toList = s.toList := by
  rw [escapeAttribute_toList]
  induction s.toList with
  | nil => rfl
  | cons c cs ih => rw [List.flatMap_cons, decodeEntities_escape, ih]

theorem special_not_mem_escapeAttribute (s : String) {c : Char} (hc : c ∈ (escapeAttribute s).toList) :
    c ∉ ['"', '<', '>', '\x7b', '\x7d'] := by
  rw [escapeAttribute_toList, List.mem_flatMap] at hc
  obtain ⟨d, -, hd⟩ := hc
  rw [escapeAttribute_singleton] at hd
  have entity : ∀ e ∈ ["&amp;", "&quot;", "&lt;", "&gt;", "&#123;", "&#125;"], ∀ x ∈ e.toList,
      x ∉ ['"', '<', '>', '\x7b', '\x7d'] := by simp
  repeat' split at hd
  all_goals first
    | exact entity _ (by simp) c hd
    | (rw [List.mem_singleton] at hd; subst hd; simp_all)

/-! ### Template literals -/

/-- The template-literal escape in one pass over the text. -/
def escapeTemplateChars : List Char → List Char
  | [] => []
  | '\\' :: cs => '\\' :: '\\' :: escapeTemplateChars cs
  | '`' :: cs => '\\' :: '`' :: escapeTemplateChars cs
  | '$' :: '{' :: cs => '\\' :: '$' :: escapeTemplateChars ('{' :: cs)
  | c :: cs => c :: escapeTemplateChars cs

@[simp] theorem replaceAll_nil (pat rep : List Char) : replaceAll pat rep [] = [] := by
  rw [replaceAll]

theorem replaceAll_pat_append (pat rep rest : List Char) (hpat : pat ≠ []) :
    replaceAll pat rep (pat ++ rest) = rep ++ replaceAll pat rep rest := by
  obtain ⟨p, ps, rfl⟩ := List.exists_cons_of_ne_nil hpat
  rw [List.cons_append, replaceAll, dif_pos ⟨hpat, by simp [List.isPrefixOf_iff_prefix]⟩,
    ← List.cons_append, List.drop_left]

theorem replaceAll_cons_of_unmatched {pat : List Char} (rep : List Char) {c : Char} {cs : List Char}
    (h : ¬ pat <+: c :: cs) :
    replaceAll pat rep (c :: cs) = c :: replaceAll pat rep cs := by
  rw [replaceAll, dif_neg (by simp [List.isPrefixOf_iff_prefix, h])]

theorem replaceAll_singleton (p : Char) (rep cs : List Char) :
    replaceAll [p] rep cs = cs.flatMap fun c => if c = p then rep else [c] := by
  induction cs with
  | nil => simp
  | cons c cs ih =>
    by_cases hc : c = p
    · subst hc
      simpa [ih] using replaceAll_pat_append [c] rep cs (by simp)
    · rw [replaceAll_cons_of_unmatched rep (by simp [Ne.symm hc]), ih]
      simp [hc]

theorem head?_escapeBackslashesTicks (cs : List Char) :
    ((List.flatMap (fun c => if c = '`' then ['\\', '`'] else [c])
      (List.flatMap (fun c => if c = '\\' then ['\\', '\\'] else [c]) cs))).head? = some '{' →
      cs.head? = some '{' := by
  cases cs with
  | nil => simp
  | cons c cs =>
    by_cases h1 : c = '\\'
    · simp [h1]
    · by_cases h2 : c = '`'
      · simp [h2]
      · simp [h1, h2]

theorem replaceAll_three_eq_escapeTemplateChars (cs : List Char) :
    replaceAll ['$', '{'] ['\\', '$', '{'] (replaceAll ['`'] ['\\', '`'] (replaceAll ['\\'] ['\\', '\\'] cs)) =
      escapeTemplateChars cs := by
  simp only [replaceAll_singleton]
  fun_induction escapeTemplateChars cs with
  | case1 => simp
  | case2 cs ih => simp [replaceAll_cons_of_unmatched, ih]
  | case3 cs ih => simp [replaceAll_cons_of_unmatched, ih]
  | case4 cs ih =>
    -- the third pass escapes the dollar sign and resumes at the brace, which it keeps
    have hpre := replaceAll_pat_append ['$', '{'] ['\\', '$', '{']
      (List.flatMap (fun c => if c = '`' then ['\\', '`'] else [c])
        (List.flatMap (fun c => if c = '\\' then ['\\', '\\'] else [c]) cs)) (by simp)
    simp only [List.cons_append, List.nil_append] at hpre
    simp [← ih, hpre, replaceAll_cons_of_unmatched]
  | case5 c cs h1 h2 h3 ih =>
    -- a character the passes keep, and a dollar sign not followed by a brace
    have hkeep : ¬ ['$', '{'] <+: c :: List.flatMap (fun c => if c = '`' then ['\\', '`'] else [c])
        (List.flatMap (fun c => if c = '\\' then ['\\', '\\'] else [c]) cs) := by
      rintro ⟨t, ht⟩
      simp only [List.cons_append, List.nil_append, List.cons.injEq] at ht
      obtain ⟨rfl, hb⟩ := ht
      obtain ⟨ds, rfl⟩ := List.head?_eq_some_iff.mp (head?_escapeBackslashesTicks cs (by rw [← hb]; rfl))
      exact h3 _ rfl rfl
    simp only [List.flatMap_cons, if_neg h1, if_neg h2, List.cons_append, List.nil_append,
      replaceAll_cons_of_unmatched _ hkeep, ih]

theorem escapeTemplate_toList (s : String) :
    (escapeTemplate s).toList = escapeTemplateChars s.toList := by
  rw [escapeTemplate, String.toList_ofList, replaceAll_three_eq_escapeTemplateChars]

theorem escapeTemplateChars_head (cs rest : List Char) (h : cs.head? ≠ some '\x7b') (ds : List Char) :
    escapeTemplateChars cs ++ '`' :: rest ≠ '\x7b' :: ds := by
  cases cs with
  | nil => simp [escapeTemplateChars]
  | cons c cs =>
    have hc : c ≠ '\x7b' := fun hc => h (by simp [hc])
    unfold escapeTemplateChars
    split <;> simp_all

theorem readTemplate_cons {c : Char} {x : List Char} (h1 : c ≠ '`') (h2 : c ≠ '\\')
    (h3 : c = '$' → x.head? ≠ some '\x7b') :
    readTemplate (c :: x) = (readTemplate x).map fun (v, rest) => (c :: v, rest) := by
  conv => lhs; unfold readTemplate
  split <;> simp_all

theorem readTemplate_escape (cs rest : List Char) :
    readTemplate (escapeTemplateChars cs ++ '`' :: rest) = some (cs, rest) := by
  fun_induction escapeTemplateChars cs with
  | case1 => rfl
  | case2 cs ih => simp [readTemplate, ih]
  | case3 cs ih => simp [readTemplate, ih]
  | case4 cs ih => simp [readTemplate, ih]
  | case5 c cs h1 h2 h3 ih =>
    rw [List.cons_append, readTemplate_cons h2 h1, ih]
    · rfl
    · -- a dollar sign the writer left alone is not followed by a brace
      intro hc hd
      have hcs : cs.head? ≠ some '\x7b' := by
        intro hcs
        obtain ⟨ds, rfl⟩ : ∃ ds, cs = '\x7b' :: ds := by
          cases cs with
          | nil => simp at hcs
          | cons d ds => simp at hcs; exact ⟨ds, by rw [hcs]⟩
        exact h3 ds hc rfl
      obtain ⟨ds, hds⟩ : ∃ ds, escapeTemplateChars cs ++ '`' :: rest = '\x7b' :: ds := by
        cases hx : escapeTemplateChars cs ++ '`' :: rest with
        | nil => simp at hx
        | cons d ds => rw [hx] at hd; simp at hd; exact ⟨ds, by rw [hd]⟩
      exact escapeTemplateChars_head cs rest hcs ds hds

/-! ### Tabs -/

theorem readTab_eq {value label title language body rest : List Char} (isDefault : Bool)
    (hv : '"' ∉ value) (hl : '"' ∉ label) (ht : '"' ∉ title) (hg : '"' ∉ language) :
    readTab ("  <TabItem value=\"".toList ++ (value ++ '"' :: (" label=\"".toList ++ (label ++ '"' ::
      ((if isDefault then " default".toList else []) ++ (">\n    <CodeBlock title=\"".toList ++
      (title ++ '"' :: (" language=\"".toList ++ (language ++ '"' :: (">\x7b`".toList ++
      (escapeTemplateChars body ++ '`' :: ("\x7d</CodeBlock>\n  </TabItem>\n".toList ++ rest)))))))))))) =
      some ({ value := String.ofList (decodeEntities value), label := String.ofList (decodeEntities label),
              isDefault, title := String.ofList (decodeEntities title),
              language := String.ofList (decodeEntities language), body := String.ofList body }, rest) := by
  have hclose := expect_default_of_close (">\n    <CodeBlock title=\"".toList ++
      (title ++ '"' :: (" language=\"".toList ++ (language ++ '"' :: (">\x7b`".toList ++
      (escapeTemplateChars body ++ '`' :: ("\x7d</CodeBlock>\n  </TabItem>\n".toList ++ rest)))))))
      rfl
  cases isDefault <;>
    simp only [readTab, expect_append, readAttribute_append hv, readAttribute_append hl,
      readAttribute_append ht, readAttribute_append hg, readTemplate_escape, hclose, Bool.false_eq_true,
      if_true, if_false, List.nil_append, Option.bind_eq_bind, Option.bind_some, Option.pure_def]

def tabText (b : Block) (i : Nat) : String :=
  "  <TabItem value=\"" ++ b.format.name ++ "\" label=\"" ++ b.format.name ++ "\"" ++
    (if i == 0 then " default" else "") ++ ">\n" ++
  "    <CodeBlock title=\"" ++ escapeAttribute b.title ++ "\" language=\"" ++ b.format.name ++
    "\">\x7b`" ++ escapeTemplate b.body ++ "`\x7d</CodeBlock>\n" ++
  "  </TabItem>\n"

theorem mdxText_eq (blocks : List Block) :
    mdxText blocks =
      "<Tabs>\n" ++ String.join (blocks.zipIdx.map fun p => tabText p.1 p.2) ++ "</Tabs>\n" := rfl

theorem tabText_toList (b : Block) (i : Nat) (rest : List Char) :
    (tabText b i).toList ++ rest = "  <TabItem value=\"".toList ++ (b.format.name.toList ++ '"' ::
      (" label=\"".toList ++ (b.format.name.toList ++ '"' ::
      ((if (i == 0) = true then " default".toList else []) ++ (">\n    <CodeBlock title=\"".toList ++
      ((escapeAttribute b.title).toList ++ '"' :: (" language=\"".toList ++ (b.format.name.toList ++ '"' ::
      (">\x7b`".toList ++ (escapeTemplateChars b.body.toList ++ '`' ::
      ("\x7d</CodeBlock>\n  </TabItem>\n".toList ++ rest))))))))))) := by
  -- the writer's pieces split at other places than the reader's
  have s1 : "\" label=\"".toList = '"' :: " label=\"".toList := rfl
  have s2 : "\"".toList = ['"'] := rfl
  have s3 (x : List Char) : ">\n".toList ++ ("    <CodeBlock title=\"".toList ++ x) =
      ">\n    <CodeBlock title=\"".toList ++ x := by
    rw [← List.append_assoc]
    rfl
  have s4 : "\" language=\"".toList = '"' :: " language=\"".toList := rfl
  have s5 : "\">\x7b`".toList = '"' :: ">\x7b`".toList := rfl
  have s6 (x : List Char) : "`\x7d</CodeBlock>\n".toList ++ ("  </TabItem>\n".toList ++ x) =
      '`' :: ("\x7d</CodeBlock>\n  </TabItem>\n".toList ++ x) := by
    rw [← List.append_assoc]
    rfl
  have s7 : (if i == 0 then " default" else "").toList =
      if (i == 0) = true then " default".toList else [] := by
    split <;> rfl
  unfold tabText
  simp only [String.toList_append, escapeTemplate_toList, List.append_assoc, s1, s2, s3, s4, s5, s6, s7,
    List.cons_append, List.nil_append]

theorem quote_not_mem_name (f : Format) : '"' ∉ f.name.toList := by
  cases f <;> decide

theorem decodeEntities_name (f : Format) : decodeEntities f.name.toList = f.name.toList := by
  cases f <;> rfl

def tabOf (b : Block) (i : Nat) : Tab :=
  { value := b.format.name, label := b.format.name, isDefault := i == 0, title := b.title,
    language := b.format.name, body := b.body }

theorem readTab_tabText (b : Block) (i : Nat) (rest : List Char) :
    readTab ((tabText b i).toList ++ rest) = some (tabOf b i, rest) := by
  have ht : '"' ∉ (escapeAttribute b.title).toList := fun h =>
    special_not_mem_escapeAttribute b.title h (by simp)
  rw [tabText_toList, readTab_eq _ (quote_not_mem_name _) (quote_not_mem_name _) ht (quote_not_mem_name _)]
  simp [tabOf, decodeEntities_name, decodeEntities_escapeAttribute]

theorem expect_close_tabText (b : Block) (i : Nat) (rest : List Char) :
    expect "</Tabs>\n".toList ((tabText b i).toList ++ rest) = none := by
  rw [tabText_toList]
  rfl

theorem readTabs_join (ps : List (Block × Nat)) (fuel : Nat) (hfuel : ps.length < fuel) :
    readTabs fuel ((String.join (ps.map fun p => tabText p.1 p.2)).toList ++ "</Tabs>\n".toList) =
      some (ps.map fun p => tabOf p.1 p.2) := by
  induction ps generalizing fuel with
  | nil =>
    obtain ⟨f, rfl⟩ : ∃ f, fuel = f + 1 := ⟨fuel - 1, by simp at hfuel; omega⟩
    rfl
  | cons p ps ih =>
    obtain ⟨f, rfl⟩ : ∃ f, fuel = f + 1 := ⟨fuel - 1, by omega⟩
    have hrest := ih f (by simp at hfuel; omega)
    simp only [List.map_cons, String.join_cons, String.toList_append, List.append_assoc] at hrest ⊢
    simp only [readTabs, expect_close_tabText, readTab_tabText, hrest, Option.bind_eq_bind,
      Option.bind_some, Option.pure_def]

theorem length_lt_length_join_tabText (ps : List (Block × Nat)) :
    ps.length < (String.join (ps.map fun p => tabText p.1 p.2)).length + 1 := by
  induction ps with
  | nil => simp
  | cons p ps ih =>
    have hpos : 0 < (tabText p.1 p.2).length := by
      have hopen : "  <TabItem value=\"".toList = ' ' :: " <TabItem value=\"".toList := rfl
      rw [← String.length_toList, ← List.append_nil (tabText p.1 p.2).toList, tabText_toList, hopen]
      exact Nat.succ_pos _
    simp only [List.map_cons, String.join_cons, String.length_append, List.length_cons]
    omega

theorem read_mdxText (blocks : List Block) :
    read (mdxText blocks) = some (blocks.zipIdx.map fun p => tabOf p.1 p.2) := by
  have hlen : blocks.zipIdx.length < (mdxText blocks).length := by
    have hopen : "<Tabs>\n".length = 7 := by decide
    have hsum := length_lt_length_join_tabText blocks.zipIdx
    rw [mdxText_eq, String.length_append, String.length_append, hopen]
    omega
  simp only [read, mdxText_eq, String.toList_append, List.append_assoc, expect_append, Option.bind_eq_bind,
    Option.bind_some]
  rw [← mdxText_eq]
  exact readTabs_join _ _ hlen

end ConfigTabs.Mdx

namespace ConfigTabs

open Json

theorem readsBack_toValue (d : Nat) (b : Block) : ReadsBack (d + 1) b.toValue :=
  .object d _ (by simp only [List.map_cons, List.map_nil]; decide) fun p hp => by
    simp only [List.mem_cons, List.not_mem_nil, or_false] at hp
    rcases hp with rfl | rfl | rfl <;> exact .string d _

theorem parse_jsonText (blocks : List Block) :
    parse (jsonText blocks) = .ok (.array (blocks.map Block.toValue)) := by
  have hv : ReadsBack 127 (.array (blocks.map Block.toValue)) :=
    .array 126 _ fun v hv => by
      obtain ⟨b, -, rfl⟩ := List.mem_map.mp hv
      exact readsBack_toValue 125 b
  exact parse_write_append hv (by simp [IsBlank]) (.inr (.inr ⟨[], rfl⟩))

/-- Neither emitter loses anything: the `mdx` text reads back as one tab per block, only the first
the default, and the `json` text parses back as the list of the blocks' records. -/
theorem emit_reads_back (blocks : List Block) :
    Mdx.read (Emitter.mdx.emit blocks) = some (blocks.zipIdx.map fun p =>
      { value := p.1.format.name, label := p.1.format.name, isDefault := p.2 == 0, title := p.1.title,
        language := p.1.format.name, body := p.1.body }) ∧
    (∀ b ∈ blocks, ∀ c ∈ (escapeAttribute b.title).toList, c ∉ ['"', '<', '>', '\x7b', '\x7d']) ∧
    (∃ t, Emitter.json.emit blocks = t ++ "\n" ∧ t.toList.getLast? = some ']') ∧
    parse (Emitter.json.emit blocks) = .ok (.array (blocks.map fun b =>
      .object [("label", .string b.format.name), ("title", .string b.title), ("body", .string b.body)])) := by
  refine ⟨Mdx.read_mdxText blocks, fun b _ c hc => Mdx.special_not_mem_escapeAttribute b.title hc, ?_,
    parse_jsonText blocks⟩
  obtain ⟨t, ht⟩ := pretty_array_toList 0 (blocks.map Block.toValue)
  exact ⟨write (.array (blocks.map Block.toValue)), rfl, by simp [write, ht]⟩

end ConfigTabs
