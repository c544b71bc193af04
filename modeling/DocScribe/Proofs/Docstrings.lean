/-
What documenting with placeholders puts in.

A text is calm when no blank follows the end of the word `class` or `def` in
it. No signature of Python starts inside a calm text that a line feed ends
(`Python.class_quiet_of_calm`, `Python.method_quiet_of_calm`). The blocks that
placeholders make are such texts, and quotes open them
(`Python.docstring_block`).
-/
import DocScribe.Block.Render
import DocScribe.Proofs.LineTracing
import DocScribe.Proofs.PythonForms

namespace DocScribe

/-! ## Calm texts -/

/-- Two letters that end the word `class` or `def`. -/
def endsWord (e d : Char) : Bool := (e == 's' && d == 's') || (e == 'e' && d == 'f')

/-- No blank of a text follows the end of the word `class` or `def`. -/
def calm : Text → Bool
  | e :: d :: c :: t => !(isBlank c && endsWord e d) && calm (d :: c :: t)
  | _ => true

theorem calm_of_cons {c : Char} {t : Text} (h : calm (c :: t) = true) : calm t = true := by
  cases t with
  | nil => rfl
  | cons d t =>
    cases t with
    | nil => rfl
    | cons e t =>
      rw [calm, Bool.and_eq_true] at h
      exact h.2

theorem calm_of_append {a b : Text} (h : calm (a ++ b) = true) : calm b = true := by
  induction a with
  | nil => exact h
  | cons c a ih => exact ih (calm_of_cons h)

theorem not_endsWord_of_blank {e d : Char} (h : isBlank e = true ∨ isBlank d = true) :
    endsWord e d = false := by
  rw [Bool.eq_false_iff]
  intro hword
  simp only [endsWord, Bool.or_eq_true, Bool.and_eq_true, beq_iff_eq] at hword
  rcases hword with ⟨rfl, rfl⟩ | ⟨rfl, rfl⟩ <;> simp [isBlank] at h

theorem calm_blank_cons {c : Char} {t : Text} (hc : isBlank c = true) (h : calm t = true) :
    calm (c :: t) = true := by
  match t with
  | [] => rfl
  | [_] => rfl
  | d :: e :: t => simp [calm, not_endsWord_of_blank (.inl hc), h]

theorem calm_blank_append {a b : Text} (ha : Blank a) (hb : calm b = true) : calm (a ++ b) = true := by
  induction a with
  | nil => exact hb
  | cons c a ih =>
    exact calm_blank_cons (ha c List.mem_cons_self) (ih fun d hd => ha d (List.mem_cons_of_mem c hd))

/-- Calm texts one after the other, when a blank ends the first. -/
theorem calm_append {a b : Text} {z : Char} (hz : isBlank z = true) (ha : calm (a ++ [z]) = true)
    (hb : calm b = true) : calm (a ++ z :: b) = true := by
  match a with
  | [] => exact calm_blank_cons hz hb
  | [e] =>
    have htail := calm_blank_cons hz hb
    match b with
    | [] => rfl
    | c :: b =>
      rw [List.singleton_append, calm, not_endsWord_of_blank (.inr hz), Bool.and_false, Bool.not_false,
        Bool.true_and]
      exact htail
  | [e, d] =>
    have htail := calm_append (a := [d]) hz rfl hb
    rw [List.cons_append, List.singleton_append, calm, Bool.and_eq_true] at ha ⊢
    exact ⟨ha.1, htail⟩
  | e :: d :: c :: a =>
    have htail := calm_append (a := d :: c :: a) hz (calm_of_cons ha) hb
    rw [List.cons_append, List.cons_append, List.cons_append, calm, Bool.and_eq_true] at ha ⊢
    exact ⟨ha.1, htail⟩

/-- A text without blanks in front of a calm one, when a letter that ends no
word comes between. -/
theorem calm_marks_append {a b : Text} {z : Char} (ha : ∀ c ∈ a, isBlank c = false) (hz : isBlank z = false)
    (hz' : z ≠ 's' ∧ z ≠ 'f') (hb : calm (z :: b) = true) : calm (a ++ z :: b) = true := by
  match a with
  | [] => exact hb
  | [e] =>
    match b with
    | [] => rfl
    | c :: b =>
      rw [List.singleton_append, calm,
        show endsWord e z = false by simp [endsWord, hz'], Bool.and_false, Bool.not_false, Bool.true_and]
      exact hb
  | [e, d] =>
    have htail := calm_marks_append (a := [d]) (fun c hc => ha c (List.mem_cons_of_mem e hc)) hz hz' hb
    rw [List.cons_append, List.singleton_append, calm, hz, Bool.false_and, Bool.not_false, Bool.true_and]
    exact htail
  | e :: d :: c :: a =>
    have htail := calm_marks_append (a := d :: c :: a) (fun c hc => ha c (List.mem_cons_of_mem e hc)) hz hz' hb
    rw [List.cons_append, List.cons_append, List.cons_append, calm, ha c (by simp), Bool.false_and,
      Bool.not_false, Bool.true_and]
    exact htail

/-- No word that two letters end, and that a blank follows, starts inside a
calm text that a line feed ends. -/
theorem not_word_of_calm {s a b z : Text} {c : Char} (rest word : Text) (e d : Char)
    (hcalm : calm (s ++ ['\n']) = true)
    (hs : s ++ ['\n'] = a ++ b) (hb : b ≠ []) (hword : endsWord e d = true) (hfeed : '\n' ∉ word ++ [e, d])
    (hc : isBlank c = true) : b ++ rest ≠ (word ++ [e, d]) ++ c :: z := by
  intro heq
  by_cases hle : (word ++ [e, d] ++ [c]).length ≤ b.length
  · obtain ⟨b', rfl, -⟩ := append_of_length_le (a := word ++ [e, d] ++ [c]) (x := z) (by rw [heq]; simp) hle
    have hcalm' : calm ((a ++ word) ++ (e :: d :: c :: b')) = true := by
      rw [hs] at hcalm
      simpa using hcalm
    have hhere := calm_of_append hcalm'
    simp [calm, hc, hword] at hhere
  · -- What ends the text would stand in the word.
    obtain ⟨b', hb', -⟩ := append_of_length_le (a := b) (b := word ++ [e, d]) heq (by
      simp only [List.length_append, List.length_cons, List.length_nil] at hle ⊢
      omega)
    rcases Text.EndsLine.of_append (a := a) (.inr ⟨s, hs.symm⟩) with hnil | ⟨init, rfl⟩
    · exact hb hnil
    · exact hfeed (by rw [hb']; simp)

namespace Python

theorem class_quiet_of_calm {s a b : Text} (rest : Text) (hcalm : calm (s ++ ['\n']) = true)
    (hs : s ++ ['\n'] = a ++ b) (hb : b ≠ []) : classForm.Quiet (b ++ rest) := by
  rintro x y heq ⟨ws, n, ns, g, anc, rfl, hne, hws, -⟩
  obtain ⟨w, ws, rfl⟩ := List.exists_cons_of_ne_nil hne
  refine not_word_of_calm rest ['c', 'l', 'a'] 's' 's' hcalm hs hb (by decide) (by decide)
    (hws w List.mem_cons_self) (heq.trans ?_) (z := ws ++ n :: (ns ++ (g ++ (anc ++ [':']))) ++ y)
  simp [classWord]

theorem method_quiet_of_calm {s a b : Text} (rest : Text) (hcalm : calm (s ++ ['\n']) = true)
    (hs : s ++ ['\n'] = a ++ b) (hb : b ≠ []) : methodForm.Quiet (b ++ rest) := by
  rintro x y heq ⟨ws, p, w, rfl, hne, hws, -⟩
  obtain ⟨v, ws, rfl⟩ := List.exists_cons_of_ne_nil hne
  refine not_word_of_calm rest ['d'] 'e' 'f' hcalm hs hb (by decide) (by decide)
    (hws v List.mem_cons_self) (heq.trans ?_) (z := ws ++ (p ++ '(' :: w) ++ y)
  simp [defWord]

end Python

/-! ## Lines of a block -/

/-- Lines, each with a line ending. -/
def rowsOf (newline : Text) (ls : List Text) : Text := (ls.map (· ++ newline)).flatten

/-- A line that is calm with either line ending. -/
structure CalmLine (line : Text) : Prop where
  one : '\n' ∉ line
  feed : calm (line ++ ['\n']) = true
  carriage : calm (line ++ ['\r']) = true

theorem calm_rowsOf {newline : Text} (hnew : newline = ['\n'] ∨ newline = ['\r', '\n']) {ls : List Text}
    (h : ∀ l ∈ ls, CalmLine l) : calm (rowsOf newline ls) = true := by
  induction ls with
  | nil => rfl
  | cons l ls ih =>
    have htail := ih fun l' hl' => h l' (List.mem_cons_of_mem l hl')
    obtain ⟨-, hfeed, hreturn⟩ := h l List.mem_cons_self
    rw [rowsOf, List.map_cons, List.flatten_cons, List.append_assoc]
    rcases hnew with rfl | rfl
    · exact calm_append (by decide) hfeed htail
    · exact calm_append (by decide) hreturn (calm_blank_cons (by decide) htail)

theorem endsLine_rowsOf {newline : Text} (hnew : newline = ['\n'] ∨ newline = ['\r', '\n']) (ls : List Text) :
    Text.EndsLine (rowsOf newline ls) := by
  have hline : ∀ l : Text, Text.EndsLine (l ++ newline) := by
    intro l
    rcases hnew with rfl | rfl
    · exact .feed l
    · exact .inr ⟨l ++ ['\r'], by simp⟩
  induction ls with
  | nil => exact .inl rfl
  | cons l ls ih => exact (hline l).append ih

theorem flatMap_ending_eq_self {a : Text} (ha : '\n' ∉ a) (newline : Text) :
    (a.flatMap fun c => if c = '\n' then newline else [c]) = a := by
  induction a with
  | nil => rfl
  | cons c a ih =>
    simp only [List.mem_cons, not_or] at ha
    rw [List.flatMap_cons, if_neg (Ne.symm ha.1), ih ha.2]
    rfl

/-- Lines with line feeds, given the line endings of a file. -/
theorem withEnding_rowsOf (newline : Text) {ls : List Text} (h : ∀ l ∈ ls, '\n' ∉ l) :
    Block.withEnding newline (rowsOf ['\n'] ls) = rowsOf ['\n'] ls ∨
      Block.withEnding newline (rowsOf ['\n'] ls) = rowsOf newline ls := by
  unfold Block.withEnding
  split
  · exact .inl rfl
  · next hplain =>
    clear hplain
    right
    induction ls with
    | nil => rfl
    | cons l ls ih =>
      rw [rowsOf, List.map_cons, List.flatten_cons, List.flatMap_append, List.flatMap_append,
        flatMap_ending_eq_self (h l List.mem_cons_self)]
      have htail := ih fun l' hl' => h l' (List.mem_cons_of_mem l hl')
      rw [rowsOf] at htail
      rw [htail]
      simp [rowsOf]

theorem segments_joinLines_cons {l : Text} (hl : '\n' ∉ l) {ls : List Text} (hne : ls ≠ []) :
    Text.segments (Text.joinLines (l :: ls)) = l :: Text.segments (Text.joinLines ls) := by
  have hfirst : Text.segments l = [l] := Text.pieces_of_not_mem hl
  rw [Text.segments_joinLines_flatMap (by simp), Text.segments_joinLines_flatMap hne, List.flatMap_cons, hfirst,
    List.singleton_append]

/-- Lines without line feeds come back as they were. -/
theorem segments_joinLines {ls : List Text} (hne : ls ≠ []) (h : ∀ l ∈ ls, '\n' ∉ l) :
    Text.segments (Text.joinLines ls) = ls := by
  have hlines : ls.flatMap Text.segments = ls.flatMap fun l => [l] :=
    List.flatMap_congr fun l hl => Text.pieces_of_not_mem (h l hl)
  rw [Text.segments_joinLines_flatMap hne, hlines]
  simp

/-- White space as lines start with it. -/
def Margin (m : Text) : Prop := ∀ c ∈ m, c = ' ' ∨ c = '\t'

theorem Margin.blank {m : Text} (h : Margin m) : Blank m := by
  intro c hc
  rcases h c hc with rfl | rfl <;> decide

theorem Margin.one {m : Text} (h : Margin m) : '\n' ∉ m := by
  intro hmem
  rcases h '\n' hmem with hc | hc <;> cases hc

theorem CalmLine.indent {m line : Text} (hm : Margin m) (h : CalmLine line) :
    CalmLine (indentLine m line) := by
  unfold indentLine
  split
  · exact ⟨by simp, by decide, by decide⟩
  · refine ⟨?_, ?_, ?_⟩
    · simpa using ⟨hm.one, h.one⟩
    · rw [List.append_assoc]
      exact calm_blank_append hm.blank h.feed
    · rw [List.append_assoc]
      exact calm_blank_append hm.blank h.carriage

theorem calmLine_indentLater {m : Text} (hm : Margin m) {ls : List Text} (h : ∀ l ∈ ls, CalmLine l) :
    ∀ l ∈ indentLater [] m ls, CalmLine l := by
  induction ls with
  | nil => simp [indentLater]
  | cons l ls ih =>
    have hl := h l List.mem_cons_self
    cases ls with
    | nil =>
      intro l' hl'
      rw [List.mem_singleton.1 hl']
      exact hl.indent hm
    | cons l₂ ls =>
      rw [indentLater]
      intro l' hl'
      rcases List.mem_cons.1 hl' with rfl | hl'
      · rw [List.append_nil]
        exact hl.indent hm
      · exact ih (fun l'' hl'' => h l'' (List.mem_cons_of_mem l hl'')) l' hl'
      · intro hnil
        cases hnil

/-! ## Placeholders -/

/-- A text that quotes open, blanks apart, and a line feed ends, in which no
signature of Python starts. -/
structure Docstring (s : Text) : Prop where
  opens : ∃ b rest, Blank b ∧ s = b ++ (quotes ++ rest)
  calm : calm s = true
  ended : ∃ init, s = init ++ ['\n']

/-- What the placeholders tell about a construct. -/
def placeholderText (s : Style) (c : Candidate) : DocText :=
  ⟨"<docstring>", c.arguments.map fun name =>
    ⟨name, if s.arguments.addType then some "<type>" else none, "<arg docstring>"⟩⟩

/-- The block that a style makes of them. -/
def placeholderBlock (s : Style) (c : Candidate) : Block :=
  { text := indentBlock (Text.joinLines (s.parts (placeholderText s c))) s.innerIndent c.indentation
    start := c.start
    stop := c.stop
    placement := c.placement
    withinScope := c.withinScope }

theorem render_placeholder {s : Style} (h : s.template = none) (c : Candidate) :
    s.render c (placeholderText s c) = .ok (placeholderBlock s c) := by
  simp only [Style.render, Style.layout, h]
  rfl

/-- A candidate with white space in front of its block and identifiers as
arguments. -/
structure Candidate.Plain (c : Candidate) : Prop where
  margin : Margin c.indentation
  arguments : ∀ name ∈ c.arguments, ∀ ch ∈ name, isBlank ch = false

namespace Python

theorem docstring_placeholder (kind : Kind) (c : Candidate) :
    (style kind).docstring (placeholderText (style kind) c) = "<docstring>".toList := by
  have hwords : wrapWords "<docstring>".toList 10 = "<docstring>".toList := by decide
  have hblank : Text.allBlank "<docstring>".toList = false := by decide
  have hwidth : (style kind).wordsPerLine = 10 := by cases kind <;> rfl
  rw [Style.docstring, show (placeholderText (style kind) c).docstring = "<docstring>".toList from rfl,
    hblank, if_neg (by simp), hwidth, hwords]

theorem trim_eq_self {a : Text} {c z : Char} (hc : isBlank c = false) (hz : isBlank z = false) :
    Text.trim (c :: (a ++ [z])) = c :: (a ++ [z]) := by
  have hflip : (c :: (a ++ [z])).reverse = z :: (c :: a).reverse := by simp
  rw [Text.trim, Text.trimBy, List.dropWhile_cons_of_neg (by simp [hc]), hflip,
    List.dropWhile_cons_of_neg (by simp [hz])]
  simp

/-- The entry of an argument that nothing was told about. -/
theorem entry_placeholder (kind : Kind) {name : Text} (h : ∀ ch ∈ name, isBlank ch = false) :
    (style kind).arguments.entry ⟨name, some "<type>", "<arg docstring>"⟩ =
      "<type> ".toList ++ (name ++ ": <arg docstring>".toList) := by
  have hdescribed : Text.trim (name ++ ": <arg docstring>".toList) = name ++ ": <arg docstring>".toList := by
    cases name with
    | nil => exact trim_eq_self (c := ':') (a := " <arg docstring".toList) (z := '>') (by decide) (by decide)
    | cons c name =>
      have := trim_eq_self (c := c) (a := name ++ ": <arg docstring".toList) (z := '>')
        (h c List.mem_cons_self) (by decide)
      simpa using this
  have hdoc : name ++ [':', ' '] ++ Text.trim "<arg docstring>".toList =
      name ++ ": <arg docstring>".toList := by
    rw [show Text.trim "<arg docstring>".toList = "<arg docstring>".toList by decide]
    simp
  have hparts : ([[], "<type>".toList, name ++ ": <arg docstring>".toList].map Text.trim).filter
        (fun p => !p.isEmpty) =
      ["<type>".toList, name ++ ": <arg docstring>".toList] := by
    rw [List.map_cons, List.map_cons, List.map_cons, hdescribed, List.map_nil,
      List.filter_cons_of_neg (by decide), List.filter_cons_of_pos (by decide),
      List.filter_cons_of_pos (by simp), List.filter_nil]
    rfl
  have hentry : (style kind).arguments.entry ⟨name, some "<type>", "<arg docstring>"⟩ =
      Text.join [' '] (([[], "<type>".toList, name ++ [':', ' '] ++ Text.trim "<arg docstring>".toList].map
        Text.trim).filter fun p => !p.isEmpty) := by
    cases kind <;> rfl
  rw [hentry, hdoc, hparts, Text.join, List.intercalate_cons_cons, List.intercalate_singleton]
  simp

theorem calmLine_entry {name : Text} (h : ∀ ch ∈ name, isBlank ch = false) :
    CalmLine ("<type> ".toList ++ (name ++ ": <arg docstring>".toList)) := by
  have hcalm : ∀ z : Char, calm (": <arg docstring>".toList ++ [z]) = true →
      calm ("<type> ".toList ++ (name ++ ": <arg docstring>".toList) ++ [z]) = true := by
    intro z hz
    have hname := calm_marks_append (a := name) (z := ':') (b := " <arg docstring>".toList ++ [z]) h
      (by decide) (by decide) hz
    have hline := calm_append (a := "<type>".toList) (z := ' ') (by decide) (by decide) hname
    simpa using hline
  refine ⟨?_, hcalm '\n' (by decide), hcalm '\r' (by decide)⟩
  have hfeed : '\n' ∉ name := fun hmem => by simpa [isBlank] using h '\n' hmem
  simp [hfeed]

theorem calmLine_parts (kind : Kind) {c : Candidate} (hc : c.Plain) :
    ∃ rest, (style kind).parts (placeholderText (style kind) c) = quotes :: rest ∧
      ∀ l ∈ quotes :: rest, CalmLine l := by
  have hquotes : CalmLine quotes := ⟨by decide, by decide, by decide⟩
  have hdocstring : CalmLine "<docstring>".toList := ⟨by decide, by decide, by decide⟩
  have hblank : ∀ wanted, ∀ l ∈ Style.blankIf wanted, CalmLine l := by
    intro wanted l hl
    cases wanted with
    | false => cases hl
    | true =>
      rw [List.mem_singleton.1 hl]
      exact ⟨by decide, by decide, by decide⟩
  have hsection : ∀ l ∈ (style kind).argumentLines (placeholderText (style kind) c), CalmLine l := by
    intro l hl
    have hheading : (style kind).arguments.heading = ["Parameters".toList, "----------".toList] := by
      cases kind <;> rfl
    have hinline : (style kind).arguments.inline = false := by cases kind <;> rfl
    have htype : (style kind).arguments.addType = true := by cases kind <;> rfl
    rw [Style.argumentLines, ArgumentStyle.sectionLines] at hl
    split at hl
    · cases hl
    · simp only [hheading, hinline, Bool.false_eq_true, if_false] at hl
      rcases List.mem_append.1 hl with hl | hl
      · simp only [List.mem_cons, List.not_mem_nil, or_false] at hl
        rcases hl with rfl | rfl <;> exact ⟨by decide, by decide, by decide⟩
      · obtain ⟨a, ha, rfl⟩ := List.mem_map.1 hl
        obtain ⟨name, hname, rfl⟩ := List.mem_map.1 ha
        rw [htype, if_pos rfl, entry_placeholder kind (hc.arguments name hname)]
        exact calmLine_entry (hc.arguments name hname)
  have hopen : (style kind).docOpen = quotes := by cases kind <;> rfl
  have hclose : (style kind).docClose = quotes := by cases kind <;> rfl
  have hall : ∀ l ∈ (style kind).parts (placeholderText (style kind) c), CalmLine l := by
    simp only [Style.parts, hopen, hclose, docstring_placeholder, List.mem_append, List.mem_singleton]
    rintro l ((((((rfl | hl) | rfl) | hl) | hl) | hl) | rfl)
    · exact hquotes
    · exact hblank _ l hl
    · exact hdocstring
    · exact hblank _ l hl
    · exact hsection l hl
    · exact hblank _ l hl
    · exact hquotes
  obtain ⟨rest, hrest⟩ : ∃ rest, (style kind).parts (placeholderText (style kind) c) = quotes :: rest := by
    rw [Style.parts, hopen]
    exact ⟨_, rfl⟩
  exact ⟨rest, hrest, hrest ▸ hall⟩

/-- **The block of a construct, with the line endings of a file, is a
docstring.** -/
theorem docstring_block (kind : Kind) {c : Candidate} (hc : c.Plain) (t : Text) :
    Docstring (Block.withEnding t.lineEnding (placeholderBlock (style kind) c).text) := by
  obtain ⟨rest, hparts, hcalm⟩ := calmLine_parts kind hc
  have hinner : (style kind).innerIndent = [] := by cases kind <;> rfl
  have hfirst : indentLine c.indentation quotes = c.indentation ++ quotes := rfl
  let ls := (c.indentation ++ quotes) :: indentLater [] c.indentation rest
  have htext : (placeholderBlock (style kind) c).text = rowsOf ['\n'] ls := by
    show indentBlock (Text.joinLines ((style kind).parts _)) (style kind).innerIndent c.indentation = _
    rw [hparts, hinner, indentBlock, segments_joinLines (by simp) fun l hl => (hcalm l hl).one, indentLines,
      hfirst]
    rfl
  have hls : ∀ l ∈ ls, CalmLine l := by
    intro l hl
    rcases List.mem_cons.1 hl with rfl | hl
    · rw [← hfirst]
      exact (hcalm quotes List.mem_cons_self).indent hc.margin
    · exact calmLine_indentLater hc.margin (fun l' hl' => hcalm l' (List.mem_cons_of_mem _ hl')) l hl
  have hrows : ∀ newline : Text, newline = ['\n'] ∨ newline = ['\r', '\n'] → Docstring (rowsOf newline ls) := by
    intro newline hnew
    refine ⟨⟨c.indentation, newline ++ rowsOf newline (indentLater [] c.indentation rest), hc.margin.blank, ?_⟩,
      calm_rowsOf hnew hls, ?_⟩
    · simp [rowsOf, ls]
    · rcases endsLine_rowsOf hnew ls with hnil | hends
      · simp [rowsOf, ls, quotes] at hnil
      · exact hends
  rw [htext]
  rcases withEnding_rowsOf t.lineEnding fun l hl => (hls l hl).one with heq | heq
  · rw [heq]
    exact hrows _ (.inl rfl)
  · rw [heq]
    exact hrows _ (Text.lineEnding_cases t)

end Python

/-! ## Candidates are plain -/

theorem not_blank_of_identifier {c : Char} (h : isIdentifierChar c = true) : isBlank c = false := by
  have hrange : (48 ≤ c.toNat ∧ c.toNat ≤ 57) ∨ (65 ≤ c.toNat ∧ c.toNat ≤ 122) := by
    delta isIdentifierChar Char.isAlphanum Char.isAlpha Char.isUpper Char.isLower Char.isDigit at h
    simp only [Bool.or_eq_true, Bool.and_eq_true, decide_eq_true_eq, beq_iff_eq, UInt32.le_iff_toNat_le,
      ge_iff_le] at h
    simp only [Char.toNat]
    rcases h with ((h | h) | h) | rfl
    · have hupper : 65 ≤ c.val.toNat ∧ c.val.toNat ≤ 90 := h
      omega
    · have hlower : 97 ≤ c.val.toNat ∧ c.val.toNat ≤ 122 := h
      omega
    · have hdigit : 48 ≤ c.val.toNat ∧ c.val.toNat ≤ 57 := h
      omega
    · exact .inr (by decide)
  simp only [isBlank, Bool.or_eq_false_iff, Bool.and_eq_false_iff, decide_eq_false_iff_not,
    beq_eq_false_iff_ne]
  omega

theorem identifier_of_argumentNames {ignore pieces : List Text} {name : Text}
    (h : name ∈ argumentNames ignore pieces) :
    ∀ c ∈ name, isIdentifierChar c = true := by
  obtain ⟨piece, -, hpiece⟩ := List.mem_filterMap.1 h
  unfold argumentPiece at hpiece
  dsimp only at hpiece
  split at hpiece
  · next named hnamed =>
    cases hpiece
    split at hnamed
    · cases hnamed
    · split at hnamed
      · cases hnamed
      · next first hfirst =>
        split at hnamed
        · cases hnamed
        · cases hnamed
          unfold firstIdentifier? at hfirst
          split at hfirst
          · cases hfirst
          · next run hrun =>
            cases hfirst
            exact fun c hc => List.all_eq_true.1 List.all_takeWhile c hc
  · cases hpiece

theorem margin_margin (line : Text) : Margin (Text.margin line) := by
  intro c hc
  have := List.all_eq_true.1 List.all_takeWhile c hc
  simpa using this

theorem margin_bodyMargin (t : Text) : Margin (bodyMargin t) := by
  unfold bodyMargin
  cases (Text.segments t).tail.find? fun line => !Text.allBlank line with
  | none => exact fun c hc => nomatch hc
  | some line => exact margin_margin line

theorem margin_lineMargin (t : Text) : Margin (lineMargin t) := margin_margin _

theorem plain_candidateOf (g : Grammar) (file : Path) (t : Text) (line : Nat) (m : Match) (s : Span) :
    (g.candidateOf file t line m s).Plain where
  margin := by
    show Margin (g.indentationOf t s)
    unfold Grammar.indentationOf
    split
    · exact margin_bodyMargin _
    · exact margin_lineMargin _
  arguments name hname ch hch := not_blank_of_identifier (identifier_of_argumentNames hname ch hch)

end DocScribe
