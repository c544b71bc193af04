/-
What stands on the lines of a block, and in which words.

A block has one line for each line of its layout: blank lines come out empty,
the others behind the margin, and between the first and the last behind the
inner indent too (`indentBlock_eq`). The layout holds the words of what it was
made from and no others, in the order in which they were told, however the
texts spread them over lines (`Style.words_parts`). `Style.render_lines` puts
both together.
-/
import DocScribe.Proofs.Words

namespace DocScribe

/-! ## Lines -/

/-- A line of a block: `place` of a layout whose last line is at `last`. -/
def blockLine (margin inner : Text) (last place : Nat) (line : Text) : Text :=
  if Text.allBlank line then [] else margin ++ (if place = 0 ∨ place = last then [] else inner) ++ line

theorem indentLater_eq (inner margin : Text) (ls : List Text) (place : Nat) {last : Nat} (h : place + ls.length = last) :
    indentLater inner margin ls = ls.mapIdx fun i => blockLine margin inner last (i + (place + 1)) := by
  induction ls generalizing place with
  | nil => rfl
  | cons line rest ih =>
    cases rest with
    | nil =>
      cases h
      simp [indentLater, indentLine, blockLine, Nat.add_comm]
    | cons line' rest =>
      simp only [List.length_cons] at h ih
      have hmiddle : indentLine (margin ++ inner) line = blockLine margin inner last (0 + (place + 1)) line := by
        have hplace : place + 1 ≠ last := by omega
        simp [indentLine, blockLine, hplace]
      have hshift (i : Nat) : i + (place + 1 + 1) = i + 1 + (place + 1) := by omega
      rw [indentLater, hmiddle, ih (place + 1) (by omega), List.mapIdx_cons (l := line' :: rest)]
      · simp only [hshift]
      · simp

/-- The lines of a block that is laid out as `t`. -/
def blockLines (margin inner t : Text) : List Text :=
  (Text.segments t).mapIdx (blockLine margin inner ((Text.segments t).length - 1))

/-- A block has the lines of its layout, in their order. -/
theorem indentBlock_eq (t inner margin : Text) :
    indentBlock t inner margin = (blockLines margin inner t).flatMap (· ++ ['\n']) := by
  obtain ⟨line, rest, hlines⟩ := List.exists_cons_of_ne_nil (Text.pieces_ne_nil (· == '\n') t)
  have hfirst : indentLine margin line = blockLine margin inner rest.length 0 line := by
    simp [indentLine, blockLine]
  have hlater := indentLater_eq inner margin rest 0 (Nat.zero_add _)
  rw [indentBlock, blockLines, Text.segments, hlines, indentLines, hfirst, hlater, List.mapIdx_cons,
    List.length_cons, Nat.add_sub_cancel, List.flatMap_def]

theorem segments_ended {ls : List Text} (h : ∀ l ∈ ls, '\n' ∉ l) :
    Text.segments (ls.flatMap (· ++ ['\n'])) = ls ++ [[]] := by
  induction ls with
  | nil => rfl
  | cons l ls ih =>
    rw [List.flatMap_cons, List.append_assoc, List.singleton_append, Text.segments, Text.pieces_append_cons (by rfl),
      Text.pieces_of_not_mem (h l List.mem_cons_self), ← Text.segments, ih fun l' hl' => h l' (List.mem_cons_of_mem l hl')]
    rfl

theorem not_feed_blockLines {margin inner t : Text} (hmargin : '\n' ∉ margin) (hinner : '\n' ∉ inner) :
    ∀ row ∈ blockLines margin inner t, '\n' ∉ row := by
  intro row hrow
  obtain ⟨i, hi, rfl⟩ := List.mem_mapIdx.1 hrow
  have hfree : '\n' ∉ (Text.segments t)[i] := fun h => by
    simpa using mem_pieces_free (List.getElem_mem hi) '\n' h
  unfold blockLine
  split
  · simp
  · split <;> simp [hmargin, hinner, hfree]

/-! ## Words of the argument section -/

namespace ArgumentStyle
variable (style : ArgumentStyle)

/-- The words of the entry of an argument: those of the lead, of the type if
asked for, of the name with a colon behind it, and of the description. -/
def entryWords (a : ArgumentText) : List Text :=
  Text.words style.lead ++ Text.words (if style.addType then a.type.getD [] else []) ++
    Text.words (a.name ++ [':']) ++ Text.words a.doc

/-- Words with a comma behind the last one. -/
def withComma (ws : List Text) : List Text := ws.dropLast ++ ws.getLast?.toList.map (· ++ [','])

/-- The words of the argument section: those of the heading, then those of the
entries. On one line, a comma ends every entry but the last. -/
def sectionWords (arguments : List ArgumentText) : List Text :=
  if arguments.isEmpty then []
  else
    style.heading.flatMap Text.words ++
      if style.inline then
        arguments.dropLast.flatMap (fun a => withComma (style.entryWords a)) ++
          arguments.getLast?.toList.flatMap style.entryWords
      else arguments.flatMap style.entryWords

/-- The parts that an entry is put together from. -/
def entryParts (a : ArgumentText) : List Text :=
  [style.lead, if style.addType then a.type.getD [] else [], a.name ++ [':', ' '] ++ Text.trim a.doc]

theorem entry_eq (a : ArgumentText) :
    style.entry a = Text.join [' '] (((style.entryParts a).map Text.trim).filter fun part => !part.isEmpty) := rfl

theorem words_entry (a : ArgumentText) : Text.words (style.entry a) = style.entryWords a := by
  have hempty (parts : List Text) : (parts.filter fun part => !part.isEmpty).flatMap Text.words =
      parts.flatMap Text.words := by
    induction parts with
    | nil => rfl
    | cons part parts ih => cases part <;> simp [ih, Text.words_nil]
  have hdescribed : Text.words (a.name ++ [':', ' '] ++ Text.trim a.doc) =
      Text.words (a.name ++ [':']) ++ Text.words a.doc := by
    rw [List.append_cons a.name ':' [' '], List.append_assoc, List.singleton_append,
      Text.words_append_blank (by decide), Text.words_trim]
  rw [entry_eq, Text.words_join (by simp) (by decide), hempty, List.flatMap_map]
  simp only [Text.words_trim, entryParts, entryWords, List.flatMap_cons, List.flatMap_nil, List.append_nil, hdescribed]
  simp only [List.append_assoc]

/-- The colon is there even when nothing was told. -/
theorem endsMarked_entry (a : ArgumentText) : EndsMarked (style.entry a) := by
  rw [entry_eq]
  refine .join (fun hnil => ?_) fun part hpart => ?_
  · have hdescribed : Text.trim (a.name ++ [':', ' '] ++ Text.trim a.doc) = [] := by
      simpa using List.filter_eq_nil_iff.1 hnil (Text.trim (a.name ++ [':', ' '] ++ Text.trim a.doc))
        (by simp [entryParts])
    refine words_ne_nil (t := a.name ++ [':', ' '] ++ Text.trim a.doc) ?_ ?_
    · have hcolon : isBlank ':' = false := by decide
      simp [Text.allBlank, hcolon]
    · rw [← Text.words_trim, hdescribed, Text.words_nil]
  · obtain ⟨hmem, hne⟩ := List.mem_filter.1 hpart
    obtain ⟨raw, -, rfl⟩ := List.mem_map.1 hmem
    exact (Text.trimmed_trim raw).endsMarked (by simpa using hne)

theorem words_inline (arguments : List ArgumentText) :
    Text.words (Text.join [',', ' '] (arguments.map style.entry)) =
      arguments.dropLast.flatMap (fun a => withComma (style.entryWords a)) ++
        arguments.getLast?.toList.flatMap style.entryWords := by
  rcases List.eq_nil_or_concat' arguments with rfl | ⟨init, last, rfl⟩
  · rfl
  · have hcomma (a : ArgumentText) : Text.words (style.entry a ++ [',']) = withComma (style.entryWords a) := by
      rw [Text.words_concat_mark (by decide) (style.endsMarked_entry a), words_entry, withComma]
    have hsplit := Text.join_append [','] [' '] (init.map style.entry) (style.entry last)
    rw [List.map_append, List.map_singleton, ← List.singleton_append (l := [' ']), hsplit,
      Text.words_join (by simp) (by decide), List.flatMap_append, List.map_map, List.flatMap_map]
    simp [hcomma, words_entry]

theorem words_sectionLines (arguments : List ArgumentText) :
    (style.sectionLines arguments).flatMap Text.words = style.sectionWords arguments := by
  unfold sectionLines sectionWords
  split
  · rfl
  · rw [List.flatMap_append]
    congr 1
    split
    · rw [List.flatMap_singleton, words_inline]
    · simp only [List.flatMap_map, words_entry]

end ArgumentStyle

/-! ## The layout -/

/-- What the docstring of a block says: what was told, unless nothing was. -/
def DocText.message (d : DocText) : Text :=
  if Text.allBlank d.docstring then Style.missingDocstring else d.docstring

namespace Style

theorem words_docstring (s : Style) (d : DocText) : Text.words (s.docstring d) = Text.words d.message := by
  unfold docstring DocText.message
  split
  · rfl
  · exact words_wrapWords _ _

theorem words_blankIf (wanted : Bool) : (blankIf wanted).flatMap Text.words = [] := by
  cases wanted <;> rfl

/-- The words of a layout are those that it was made from, in their order. -/
theorem words_parts (s : Style) (d : DocText) :
    Text.words (Text.joinLines (s.parts d)) =
      Text.words s.docOpen ++ Text.words d.message ++ (s.argumentLines d).flatMap Text.words ++
        Text.words s.docClose := by
  simp only [Text.words_joinLines, parts, List.flatMap_append, words_blankIf, List.flatMap_singleton,
    words_docstring, List.append_nil]

theorem parts_ends (s : Style) (d : DocText) : ∃ mid, mid ≠ [] ∧ s.parts d = s.docOpen :: (mid ++ [s.docClose]) :=
  ⟨blankIf s.breakAfterOpen ++ [s.docstring d] ++ blankIf s.breakAfterDocstring ++ s.argumentLines d ++
    blankIf (!(s.argumentLines d).isEmpty && s.breakBeforeClose), by simp, by simp [parts]⟩

/-- **What stands on the lines of a block.** Without a template a block is
always made. It has one line for each line of its layout, and its layout starts
and ends with the delimiters and holds their words, those of the docstring and
those of the argument section, and no others. -/
theorem render_lines {s : Style} (htemplate : s.template = none) (c : Candidate) (d : DocText) :
    ∃ t b, s.layout c d = .ok t ∧ s.render c d = .ok b ∧
      b.text = (blockLines c.indentation s.innerIndent t).flatMap (· ++ ['\n']) ∧
      ('\n' ∉ c.indentation → '\n' ∉ s.innerIndent →
        Text.segments b.text = blockLines c.indentation s.innerIndent t ++ [[]]) ∧
      (∃ mid, t = s.docOpen ++ '\n' :: (mid ++ '\n' :: s.docClose)) ∧
      Text.words t = Text.words s.docOpen ++ Text.words d.message ++ (s.argumentLines d).flatMap Text.words ++
        Text.words s.docClose ∧
      (s.argumentLines d).flatMap Text.words = s.arguments.sectionWords d.arguments := by
  have hlayout : s.layout c d = .ok (Text.joinLines (s.parts d)) := by rw [layout, htemplate]
  refine ⟨_, _, hlayout, by rw [render, hlayout]; rfl, indentBlock_eq _ _ _, fun hmargin hinner => ?_, ?_,
    s.words_parts d, s.arguments.words_sectionLines d.arguments⟩
  · exact (congrArg Text.segments (indentBlock_eq _ _ _)).trans (segments_ended (not_feed_blockLines hmargin hinner))
  · obtain ⟨mid, hmid, hparts⟩ := s.parts_ends d
    obtain ⟨l, rest, hrest⟩ := List.exists_cons_of_ne_nil hmid
    refine ⟨Text.joinLines mid, ?_⟩
    rw [hparts, Text.joinLines, hrest, List.cons_append, Text.join_cons_cons, ← List.cons_append,
      Text.join_concat (by simp)]
    rfl

/-! ## Texts with line feeds of their own -/

namespace SpreadOut

/-- Delimiters of two lines, and arguments on one line. -/
def style : Style :=
  { docOpen := "/*\n about", docClose := " end\n*/", wordsPerLine := 2, breakAfterOpen := true,
    breakAfterDocstring := false, breakBeforeClose := true, indent := "\t", innerIndent := "  ",
    arguments := { title := some "Takes\nthese", inline := true, lead := "-" }, template := none }

def candidate : Candidate :=
  { kind := .method, name := "f", text := "def f(x, y):", start := 0, stop := 12, line := 1, indentation := "\t",
    arguments := ["x", "y"], placement := .after, withinScope := true, file := ⟨"a.py"⟩, block := none }

def told : DocText := ⟨" says\n\nit\tall ", [⟨"x", none, "one\n two "⟩, ⟨"y", none, "\n"⟩]⟩

/-- Every line feed makes a line, and no word is lost. -/
theorem render_lines_told :
    style.template = none ∧ ∃ t b, style.layout candidate told = .ok t ∧ style.render candidate told = .ok b ∧
      Text.segments b.text = ["\t/*", "\t   about", "", "\t  says it", "\t  all", "\t  Takes", "\t  these",
        "\t  - x: one", "\t   two, - y:", "", "\t   end", "\t*/", ""].map String.toList ∧
      Text.words t = ["/*", "about", "says", "it", "all", "Takes", "these", "-", "x:", "one", "two,", "-", "y:",
        "end", "*/"].map String.toList := by
  obtain ⟨t, b, ht, hb, -, hsegments, -, hwords, hsection⟩ := render_lines (s := style) rfl candidate told
  refine ⟨rfl, t, b, ht, hb, ?_, ?_⟩
  · cases ht
    rw [hsegments (by decide) (by decide)]
    decide
  · rw [hwords, hsection]
    decide

end SpreadOut

end Style
end DocScribe
