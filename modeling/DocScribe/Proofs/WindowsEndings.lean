/-
Blocks in a file with the line endings of Windows.

Such a file gives its line endings to a block, but a block that already holds
one of them is left as it is. So the file keeps its line endings throughout
exactly when no block mixes them with bare line feeds
(`windows_applyBlocks?_iff`). A block that a layout makes has a bare line feed
behind its docstring (`Style.feed_of_layout`): it mixes them as soon as it
holds one (`TwoLines.mixed_endings`).
-/
import DocScribe.Proofs.LineEndings
import DocScribe.Proofs.PythonGrammar
import DocScribe.Proofs.Rounds

namespace DocScribe

/-! ## Putting in one block -/

namespace Block

/-- A block with the line endings of Windows has no others. -/
def Unmixed (b : Block) : Prop := Text.holds Text.crlf b.text = true → b.text.Windows

instance (b : Block) : Decidable b.Unmixed :=
  inferInstanceAs (Decidable (Text.holds Text.crlf b.text = true → b.text.Windows))

/-- Line feeds that are replaced follow a carriage return. -/
theorem windows_replaced (t : Text) : Text.Windows (t.flatMap fun c => if c = '\n' then Text.crlf else [c]) := by
  induction t with
  | nil =>
    intro above below h
    simp at h
  | cons c t ih =>
    intro above below h
    rw [List.flatMap_cons] at h
    by_cases hc : c = '\n'
    · simp only [hc, if_true, Text.crlf, List.cons_append, List.nil_append] at h
      cases above with
      | nil => cases (List.cons.inj h).1
      | cons d above =>
        cases above with
        | nil =>
          simp only [List.cons_append, List.nil_append, List.cons.injEq] at h
          exact ⟨[], by rw [h.1]; rfl⟩
        | cons e above =>
          simp only [List.cons_append, List.cons.injEq] at h
          obtain ⟨line, rfl⟩ := ih above below h.2.2
          exact ⟨d :: e :: line, rfl⟩
    · simp only [hc, if_false, List.cons_append, List.nil_append] at h
      cases above with
      | nil => exact absurd (List.cons.inj h).1 hc
      | cons d above =>
        simp only [List.cons_append, List.cons.injEq] at h
        obtain ⟨line, rfl⟩ := ih above below h.2
        exact ⟨d :: line, rfl⟩

theorem windows_withEnding (b : Block) : (withEnding Text.crlf b.text).Windows ↔ b.Unmixed := by
  have hother : (Text.crlf = ['\n']) = False := by decide
  unfold withEnding Unmixed
  by_cases h : Text.holds ['\r', '\n'] b.text = true
  · have h' : Text.holds Text.crlf b.text = true := h
    simp [h, h']
  · have h' : ¬Text.holds Text.crlf b.text = true := h
    simp only [hother, decide_false, h, Bool.or_false, Bool.false_eq_true, if_false, h', false_implies, iff_true]
    exact windows_replaced b.text

/-- **One block keeps the line endings of a text exactly when it does not mix
them.** -/
theorem splice?_windows {b : Block} (hb : b.Ended) {t t' : Text} (h : splice? Text.crlf t b = some t') :
    t'.Windows ↔ t.Windows ∧ b.Unmixed := by
  obtain ⟨p, hp, rfl⟩ := Option.map_eq_some_iff.1 h
  obtain ⟨s, hs⟩ := hb
  have hrows : Text.EndsLine (withEnding Text.crlf b.text) := by
    rw [hs]
    exact (withEnding_rows (.inr rfl) s).2
  rw [← windows_withEnding]
  obtain ⟨hcut, ⟨hfresh, hhead⟩ | ⟨hfresh, htail⟩⟩ := point?_cases hp
  · rw [← hcut, insertion, hfresh, if_neg (by simp), List.nil_append, List.append_assoc, Text.windows_append hhead,
      Text.windows_append hrows, Text.windows_append hhead, and_assoc, and_comm (a := p.tail.Windows)]
  · rw [htail, List.append_nil] at hcut
    rw [htail, List.append_nil, insertion, hfresh, if_pos rfl, hcut, Text.windows_crlf_append]

end Block

/-- What putting in several blocks comes to. -/
theorem foldlM_splice?_windows {bs : List Block} (hbs : ∀ b ∈ bs, b.Ended) {t t' : Text}
    (h : bs.foldlM (Block.splice? Text.crlf) t = some t') :
    t'.Windows ↔ t.Windows ∧ ∀ b ∈ bs, b.Unmixed := by
  induction bs generalizing t with
  | nil =>
    cases h
    simp
  | cons b bs ih =>
    rw [List.forall_mem_cons] at hbs
    rw [List.foldlM_cons] at h
    obtain ⟨u, hu, h⟩ := Option.bind_eq_some_iff.1 h
    rw [ih hbs.2 h, Block.splice?_windows hbs.1 hu, List.forall_mem_cons, and_assoc]

theorem applyBlocks?_windows {t t' : Text} (hfeed : '\n' ∈ t) (ht : t.Windows) {bs : List Block}
    (hbs : ∀ b ∈ bs, b.Ended) (h : applyBlocks? t bs = some t') : t'.Windows ↔ ∀ b ∈ bs, b.Unmixed := by
  have hsorted : ∀ b, b ∈ sorted Block.downward bs ↔ b ∈ bs := fun b => (sorted_perm Block.downward bs).mem_iff
  rw [applyBlocks?, ht.lineEnding_eq hfeed] at h
  rw [foldlM_splice?_windows (fun b hb => hbs b ((hsorted b).1 hb)) h]
  simp only [ht, true_and, hsorted]

/-! ## Words on lines -/

/-- A text whose last character is not blank. -/
def EndsMarked (t : Text) : Prop := ∃ init z, t = init ++ [z] ∧ isBlank z = false

theorem flatten_rowsFrom {α : Type} (width : Nat) (row : List α) (room : Nat) (xs : List α) :
    (rowsFrom width row room xs).flatten = row.reverse ++ xs := by
  fun_induction rowsFrom width row room xs with
  | case1 row room h => simp_all
  | case2 row room h => simp
  | case3 row x xs ih => simp [ih]
  | case4 row room x xs ih => simp [ih]

theorem flatten_rows {α : Type} (n : Nat) (xs : List α) : (rows n xs).flatten = xs := by
  unfold rows
  split
  · split <;> simp_all
  · exact flatten_rowsFrom _ _ _ _

theorem nil_not_mem_rowsFrom {α : Type} (width : Nat) (row : List α) (room : Nat) (xs : List α) :
    [] ∉ rowsFrom width row room xs := by
  fun_induction rowsFrom width row room xs with
  | case1 row room h => simp
  | case2 row room h =>
    have hrow : row ≠ [] := by simpa using h
    simpa using hrow.symm
  | case3 row x xs ih => simpa using ih
  | case4 row room x xs ih => exact ih

theorem nil_not_mem_rows {α : Type} (n : Nat) (xs : List α) : [] ∉ rows n xs := by
  unfold rows
  split
  · split <;> simp_all
  · exact nil_not_mem_rowsFrom _ _ _ _

theorem rows_eq_nil_iff {α : Type} {n : Nat} {xs : List α} : rows n xs = [] ↔ xs = [] := by
  have hflatten := flatten_rows n xs
  constructor
  · intro h
    rw [← hflatten, h, List.flatten_nil]
  · rintro rfl
    refine List.eq_nil_iff_forall_not_mem.2 fun row hrow => nil_not_mem_rows n ([] : List α) ?_
    have := List.flatten_eq_nil_iff.1 hflatten row hrow
    rwa [this] at hrow

theorem mem_words_of_mem_rows {n : Nat} {t : Text} {row : List Text} (h : row ∈ rows n (Text.words t)) :
    ∀ w ∈ row, w ∈ Text.words t := by
  intro w hw
  rw [← flatten_rows n (Text.words t)]
  exact List.mem_flatten.2 ⟨row, h, hw⟩

theorem mem_pieces_free {isMark : Char → Bool} {t p : Text} (h : p ∈ Text.pieces isMark t) :
    ∀ c ∈ p, isMark c = false := by
  induction t generalizing p with
  | nil =>
    simp only [Text.pieces, List.mem_singleton] at h
    simp [h]
  | cons d t ih =>
    obtain ⟨q, qs, hq⟩ := List.exists_cons_of_ne_nil (Text.pieces_ne_nil isMark t)
    rw [hq] at ih
    simp only [Text.pieces, hq] at h
    by_cases hd : isMark d = true
    · simp only [hd, if_true, List.mem_cons] at h
      rcases h with rfl | h
      · simp
      · exact ih (List.mem_cons.2 h)
    · simp only [hd, Bool.false_eq_true, if_false, List.mem_cons] at h
      rcases h with rfl | h
      · intro c hc
        rcases List.mem_cons.1 hc with rfl | hc
        · exact Bool.eq_false_iff.2 hd
        · exact ih List.mem_cons_self c hc
      · exact ih (List.mem_cons_of_mem q h)

/-- A word is not empty and holds no blank. -/
theorem marked_of_mem_words {t w : Text} (h : w ∈ Text.words t) : w ≠ [] ∧ ∀ c ∈ w, isBlank c = false := by
  obtain ⟨hpiece, hne⟩ := List.mem_filter.1 h
  exact ⟨by simpa using hne, mem_pieces_free hpiece⟩

theorem endsMarked_word {t w : Text} (h : w ∈ Text.words t) : EndsMarked w := by
  obtain ⟨hne, hmarked⟩ := marked_of_mem_words h
  obtain ⟨init, z, rfl⟩ := (List.eq_nil_or_concat w).resolve_left hne
  exact ⟨init, z, by simp, hmarked z (by simp)⟩

theorem words_ne_nil {t : Text} (h : Text.allBlank t = false) : Text.words t ≠ [] := by
  induction t with
  | nil => cases h
  | cons c t ih =>
    obtain ⟨p, ps, hp⟩ := List.exists_cons_of_ne_nil (Text.pieces_ne_nil isBlank t)
    by_cases hc : isBlank c = true
    · have ht : Text.allBlank t = false := by simpa [Text.allBlank, hc] using h
      have hskip : Text.words (c :: t) = Text.words t := by simp [Text.words, Text.pieces, hc]
      rw [hskip]
      exact ih ht
    · simp [Text.words, Text.pieces, hc, hp]

theorem EndsMarked.join {separator : Text} {ls : List Text} (hne : ls ≠ []) (h : ∀ l ∈ ls, EndsMarked l) :
    EndsMarked (Text.join separator ls) := by
  induction ls with
  | nil => exact absurd rfl hne
  | cons l ls ih =>
    cases ls with
    | nil => simpa [Text.join] using h l List.mem_cons_self
    | cons l' ls =>
      obtain ⟨init, z, heq, hz⟩ := ih (by simp) fun m hm => h m (List.mem_cons_of_mem l hm)
      refine ⟨l ++ separator ++ init, z, ?_, hz⟩
      rw [Text.join_cons_cons, heq]
      simp

theorem endsMarked_wrapWords {t : Text} (h : Text.allBlank t = false) (n : Nat) : EndsMarked (wrapWords t n) := by
  have hrows : rows n (Text.words t) ≠ [] := fun hnil => words_ne_nil h (rows_eq_nil_iff.1 hnil)
  refine .join (by simpa using hrows) fun line hline => ?_
  obtain ⟨row, hrow, rfl⟩ := List.mem_map.1 hline
  have hmem := mem_words_of_mem_rows hrow
  exact .join (fun hnil => nil_not_mem_rows n _ (hnil ▸ hrow)) fun w hw => endsMarked_word (hmem w hw)

theorem Style.endsMarked_docstring (s : Style) (d : DocText) : EndsMarked (s.docstring d) := by
  unfold docstring
  split
  · exact ⟨"Missing Docstring".toList, '!', by decide, by decide⟩
  · next h => exact endsMarked_wrapWords (Bool.eq_false_iff.2 h) _

/-! ## Lines of a layout -/

/-- The last line of a text ends as the text does. -/
theorem EndsMarked.segment {t : Text} (h : EndsMarked t) : ∃ line ∈ Text.segments t, EndsMarked line := by
  obtain ⟨init, z, rfl, hz⟩ := h
  obtain ⟨head, line, hcut, hhead, hline⟩ := Text.exists_lastLine (init ++ [z])
  have hlast : EndsMarked line := by
    rcases List.eq_nil_or_concat line with rfl | ⟨line, last, rfl⟩
    · rw [List.append_nil] at hcut
      rcases hhead with rfl | ⟨above, rfl⟩
      · simp at hcut
      · cases (List.append_inj' hcut rfl).2
        cases hz
    · have hsplit : init ++ [z] = (head ++ line) ++ [last] := by simpa using hcut
      cases (List.append_inj' hsplit rfl).2
      exact ⟨line, z, by simp, hz⟩
  refine ⟨line, ?_, hlast⟩
  have hself : Text.segments line = [line] := Text.pieces_of_not_mem hline
  rw [hcut]
  rcases hhead with rfl | ⟨above, rfl⟩
  · simp [hself]
  · rw [List.append_assoc, List.singleton_append, Text.segments, Text.pieces_append_cons (by decide)]
    exact List.mem_append_right _ (by rw [← Text.segments, hself]; simp)

theorem EndsMarked.not_blank {line : Text} (h : EndsMarked line) : Text.allBlank line = false := by
  obtain ⟨init, z, rfl, hz⟩ := h
  simp [Text.allBlank, hz]

/-- A line that is not blank comes behind some margin. -/
theorem exists_indentLine (inner margin : Text) {ls : List Text} {line : Text} (hline : line ∈ ls)
    (hmarked : Text.allBlank line = false) : ∃ m, m ++ line ∈ indentLines inner margin ls := by
  have hindent : ∀ m, indentLine m line = m ++ line := fun m => by simp [indentLine, hmarked]
  have hlater : ∀ rest, line ∈ rest → ∃ m, m ++ line ∈ indentLater inner margin rest := by
    intro rest
    fun_induction indentLater inner margin rest with
    | case1 => simp
    | case2 last =>
      intro h
      cases List.mem_singleton.1 h
      exact ⟨margin, by simp [hindent]⟩
    | case3 first rest _ ih =>
      intro h
      rcases List.mem_cons.1 h with rfl | h
      · exact ⟨margin ++ inner, by simp [hindent]⟩
      · obtain ⟨m, hm⟩ := ih h
        exact ⟨m, List.mem_cons_of_mem _ hm⟩
  cases ls with
  | nil => cases hline
  | cons first rest =>
    rcases List.mem_cons.1 hline with rfl | h
    · exact ⟨margin, by simp [indentLines, hindent]⟩
    · obtain ⟨m, hm⟩ := hlater rest h
      exact ⟨m, List.mem_cons_of_mem _ hm⟩

/-- **A layout leaves a bare line feed**: the one behind the docstring. -/
theorem Style.feed_of_layout {s : Style} (htemplate : s.template = none) {c : Candidate} {d : DocText} {b : Block}
    (h : s.render c d = .ok b) : ¬b.text.Windows := by
  have htext : b.text = indentBlock (Text.joinLines (s.parts d)) s.innerIndent c.indentation := by
    simp only [render, layout, htemplate, Except.map, Except.ok.injEq] at h
    rw [← h]
  obtain ⟨line, hline, hmarked⟩ := (s.endsMarked_docstring d).segment
  have hpart : line ∈ Text.segments (Text.joinLines (s.parts d)) := by
    rw [Text.segments_joinLines_flatMap (by simp [parts])]
    exact List.mem_flatMap.2 ⟨s.docstring d, by simp [parts], hline⟩
  obtain ⟨m, hm⟩ := exists_indentLine s.innerIndent c.indentation hpart hmarked.not_blank
  obtain ⟨init, z, rfl, hz⟩ := hmarked
  intro hwindows
  obtain ⟨upper, lower, hcut⟩ := List.append_of_mem hm
  have hflat : b.text = (((upper.map fun line => line ++ ['\n']).flatten ++ m ++ init) ++ [z]) ++
      '\n' :: (lower.map fun line => line ++ ['\n']).flatten := by
    rw [htext, indentBlock, hcut]
    simp
  obtain ⟨row, hrow⟩ := hwindows _ _ hflat
  cases (List.append_inj' hrow rfl).2
  cases hz

/-! ## The blocks of a scan -/

section scan
variable {g : Grammar} {file : Path} {t : Text} {change : Option FileChange} {bs : List Block}

/-- A block that a style made of some text for one of the candidates. -/
def Block.RenderedFor (candidates : List Candidate) (b : Block) : Prop :=
  ∃ c ∈ candidates, ∃ (style : Style) (d : DocText), style.render c d = .ok b

/-- **Blocks keep the line endings of Windows throughout exactly when none
mixes them with others**; blocks that layouts make, exactly when none holds
them at all. With at most one block for each candidate, putting them in never
fails. -/
theorem windows_applyBlocks?_iff (hfeed : '\n' ∈ t) (ht : t.Windows)
    (hbs : ∀ b ∈ bs, b.RenderedFor (scan g file t change).1.candidates) :
    (∀ t', applyBlocks? t bs = some t' →
      (t'.Windows ↔ ∀ b ∈ bs, Text.holds ['\r', '\n'] b.text = true → b.text.Windows) ∧
      ((∀ b ∈ bs, ∃ c ∈ (scan g file t change).1.candidates, ∃ (style : Style) (d : DocText),
          style.template = none ∧ style.render c d = .ok b) →
        (t'.Windows ↔ ∀ b ∈ bs, Text.holds ['\r', '\n'] b.text = false))) ∧
    (g.OrderedIn t → BlocksFor (scan g file t change).1.candidates bs → ∃ t', applyBlocks? t bs = some t') := by
  have hended : ∀ b ∈ bs, b.Ended := by
    intro b hb
    obtain ⟨c, -, style, d, hrender⟩ := hbs b hb
    exact (Style.render_fits hrender).2
  refine ⟨fun t' h => ⟨applyBlocks?_windows hfeed ht hended h, fun hlayout => ?_⟩, fun ho hfor => ?_⟩
  · rw [applyBlocks?_windows hfeed ht hended h]
    refine forall_congr' fun b => forall_congr' fun hb => ?_
    obtain ⟨c, -, style, d, htemplate, hrender⟩ := hlayout b hb
    have hbare := Style.feed_of_layout htemplate hrender
    simp only [Block.Unmixed, hbare, imp_false, Bool.not_eq_true]
    rfl
  · exact ⟨_, (stacked_of_scan ho hfor).applyBlocks?_eq⟩

end scan

/-! ### An argument that is described on two lines -/

namespace TwoLines

def text : Text := "def f(x):\r\n    pass\r\n"

def file : Path := ⟨"a.py"⟩

/-- What a scan says about the method. -/
def method : Candidate :=
  { kind := .method, name := "f", text := "def f(x):", start := 0, stop := 9, line := 1, indentation := "    "
    arguments := ["x".toList], placement := .after, withinScope := true, file, block := none }

def told (doc : Text) : DocText := ⟨"Say it.", [⟨"x", none, doc⟩]⟩

/-- The block that a description of the argument makes. -/
def block (doc : Text) : Block :=
  ⟨"    \"\"\"\n    Say it.\n\n    Parameters\n    ----------\n    x: ".toList ++ doc ++ "\n    \"\"\"\n".toList,
    0, 9, .after, true⟩

/-- The lines as they are written and as they are laid out. -/
def twoLines : Text := "one\r\ntwo"

def indented : Text := "one\r\n    two"

def updated : Text :=
  ("def f(x):\r\n    \"\"\"\r\n    Say it.\r\n\r\n    Parameters\r\n    ----------\r\n    x: one two\r\n" ++
    "    \"\"\"\r\n    pass\r\n").toList

def mixed : Text :=
  ("def f(x):\r\n    \"\"\"\n    Say it.\n\n    Parameters\n    ----------\n    x: one\r\n    two\n" ++
    "    \"\"\"\n    pass\r\n").toList

set_option maxRecDepth 100000 in
theorem scanned : (scan Python.methodGrammar file text none).1.candidates = [method] ∧
    Python.methodGrammar.OrderedIn text := by decide +kernel

set_option maxRecDepth 100000 in
theorem rendered : (Python.style .method).render method (told "one two") = .ok (block "one two") ∧
    (Python.style .method).render method (told twoLines) = .ok (block indented) :=
  ⟨eq_ok_of_toOption (by decide +kernel), eq_ok_of_toOption (by decide +kernel)⟩

theorem blocksFor (b : Block) (hb : b.Fits method) : BlocksFor [method] [b] :=
  ⟨fun _ => some b, by simpa using hb, .refl _⟩

set_option maxRecDepth 100000 in
theorem applied : applyBlocks? text [block "one two"] = some updated ∧
    applyBlocks? text [block indented] = some mixed := by decide +kernel

theorem renderedFor :
    ∀ b ∈ [block "one two"], b.RenderedFor (scan Python.methodGrammar file text none).1.candidates := by
  simp only [scanned.1, List.mem_singleton, forall_eq]
  exact ⟨method, by simp, _, _, rendered.1⟩

/-- A description on one line gets the line endings of the file. -/
theorem windows_applyBlocks?_iff_oneLine :
    '\n' ∈ text ∧ text.Windows ∧
      (∀ b ∈ [block "one two"], b.RenderedFor (scan Python.methodGrammar file text none).1.candidates) ∧
      applyBlocks? text [block "one two"] = some updated ∧
      (updated.Windows ↔ ∀ b ∈ [block "one two"], Text.holds ['\r', '\n'] b.text = true → b.text.Windows) ∧
      ∃ t', applyBlocks? text [block "one two"] = some t' := by
  have hfeed : '\n' ∈ text := by decide
  have hwindows : text.Windows := by decide
  have hfor : BlocksFor (scan Python.methodGrammar file text none).1.candidates [block "one two"] := by
    rw [scanned.1]
    exact blocksFor _ ⟨rfl, rfl, rfl⟩
  have hall := windows_applyBlocks?_iff hfeed hwindows renderedFor
  exact ⟨hfeed, hwindows, renderedFor, applied.1, (hall.1 updated applied.1).1, hall.2 scanned.2 hfor⟩

set_option maxRecDepth 100000 in
/-- A description on two lines leaves the rest of the block with bare line
feeds. -/
theorem mixed_endings :
    '\n' ∈ text ∧ text.Windows ∧ (scan Python.methodGrammar file text none).1.candidates = [method] ∧
      (Python.style .method).render method (told twoLines) = .ok (block indented) ∧
      applyBlocks? text [block indented] = some mixed ∧ ¬mixed.Windows :=
  ⟨by decide, by decide, scanned.1, rendered.2, applied.2, by decide +kernel⟩

end TwoLines

end DocScribe
