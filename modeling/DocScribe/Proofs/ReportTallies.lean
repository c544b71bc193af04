/-
What a run reports, and what it did.

A run that ends well sorts its files into those that it reports on, those that
failed and those that the user did not want, each in the order of the files
(`Interleaved`). Behind every report stand rounds (`FileReport.Accounts`): one
for each kind of construct that got a block, whose blocks were put in one after
the other (`PutIn`), so that as many blocks are counted as were put in.
`Documenter.documentFiles_tallied` says all this of every run.

A block is written in the line ending of the text that it is put into, unless
it holds line endings of Windows and the text does not, or the block has others
too (`Block.endedIn_written_iff`). So a block can leave bare line feeds in a
file that had none (`TwoLinesTold.bare_feeds`).
-/
import DocScribe.Proofs.OrderOfFiles
import DocScribe.Proofs.WindowsEndings

namespace DocScribe

/-! ## Putting blocks in -/

/-- Blocks that are put into a text one after the other: each where a line
starts, or behind the last line, which is ended first. -/
inductive PutIn (newline : Text) : Text → List Block → Text → Prop
  | nil (t : Text) : PutIn newline t [] t
  | cons {head tail t' : Text} {bs : List Block} (b : Block) (fresh : Bool)
      (hplace : fresh = false ∧ Text.EndsLine head ∨ fresh = true ∧ tail = [])
      (hrest : PutIn newline (head ++ b.insertion newline fresh ++ tail) bs t') :
      PutIn newline (head ++ tail) (b :: bs) t'

theorem putIn_of_foldlM {newline : Text} {bs : List Block} {t t' : Text}
    (h : bs.foldlM (Block.splice? newline) t = some t') : PutIn newline t bs t' := by
  induction bs generalizing t with
  | nil =>
    cases h
    exact .nil _
  | cons b bs ih =>
    rw [List.foldlM_cons] at h
    obtain ⟨u, hu, h⟩ := Option.bind_eq_some_iff.1 h
    obtain ⟨p, hp, rfl⟩ := Option.map_eq_some_iff.1 hu
    obtain ⟨hcut, hplace⟩ := Block.point?_cases hp
    rw [← hcut]
    exact .cons b p.fresh hplace (ih h)

/-- Rounds that lead from one text to another: each puts its blocks in, the
last first, with the line ending of the text it found. -/
inductive Rounded : Text → List KindRound → Text → Prop
  | nil (t : Text) : Rounded t [] t
  | cons {rounds : List KindRound} {t' : Text} (r : KindRound)
      (hput : PutIn (Text.lineEnding r.before.content) r.before.content (sorted Block.downward r.blocks)
        r.after.content)
      (hrest : Rounded r.after.content rounds t') : Rounded r.before.content (r :: rounds) t'

theorem Linked.rounded {draft draft' : Draft} {rounds : List KindRound} (h : Linked draft rounds draft') :
    Rounded draft.content (rounds.filter KindRound.fruitful) draft'.content := by
  induction h with
  | nil draft => exact .nil _
  | cons r hfilled hrest ih =>
    rcases KindRound.filled_cases hfilled with ⟨hnone, hsame⟩ | ⟨hsome, happly, -⟩
    · rw [List.filter_cons_of_neg (by simp [hnone]), ← hsame]
      exact ih
    · rw [List.filter_cons_of_pos hsome]
      exact .cons r (putIn_of_foldlM happly) ih

/-! ## The line ending of a block -/

/-- A text that has a line ending and not the other one. -/
def Text.EndedIn (newline t : Text) : Prop :=
  (newline = crlf → t.Windows) ∧ (newline = ['\n'] → holds crlf t = false)

/-- **When a block is written in a line ending.** -/
theorem Block.endedIn_written_iff (b : Block) {newline : Text} (h : newline = ['\n'] ∨ newline = Text.crlf) :
    Text.EndedIn newline (withEnding newline b.text) ↔
      (Text.holds Text.crlf b.text = true → newline = Text.crlf ∧ b.text.Windows) := by
  have hother : ['\n'] ≠ Text.crlf := by decide
  rcases h with rfl | rfl
  · have hsame : withEnding ['\n'] b.text = b.text := by simp [withEnding]
    simp [Text.EndedIn, hother, hsame]
  · simp only [Text.EndedIn, true_imp_iff, hother.symm, false_imp_iff, and_true, windows_withEnding, true_and]
    rfl

/-! ## The account of a report -/

/-- The rounds behind a report: one for each kind that it lists, with the blocks
that the candidates of the kind got. They lead from the text that was read to
the one that is left. -/
structure FileReport.Accounts {σ : Type} (r : FileReport) (d : Documenter σ) (change : Option FileChange)
    (rounds : List KindRound) : Prop where
  kinds : r.kinds = rounds.map KindRound.report
  fruitful : ∀ round ∈ rounds, round.blocks ≠ []
  rounded : Rounded r.before rounds r.updated
  obtained : ∃ deeds, ∀ round ∈ rounds, round.Obtained d r.path change deeds

theorem KindRound.length_documented (r : KindRound) : r.report.documented.length = r.blocks.length := by
  have hcount (cs : List Candidate) : (cs.filter (·.block.isSome)).length = (cs.filterMap (·.block)).length := by
    induction cs with
    | nil => rfl
    | cons c cs ih => cases hc : c.block <;> simp [hc, ih]
  rw [report, List.length_map, hcount, blocks]

namespace FileReport.Accounts

variable {σ : Type} {r : FileReport} {d : Documenter σ} {change : Option FileChange} {rounds : List KindRound}

/-- As many constructs are counted as blocks were put in. -/
theorem documentedCount_eq (h : r.Accounts d change rounds) :
    r.documentedCount = (rounds.flatMap KindRound.blocks).length := by
  simp only [documentedCount, h.kinds, List.flatMap_map, List.length_flatMap, KindRound.length_documented]

theorem documented_ne_nil (h : r.Accounts d change rounds) : ∀ k ∈ r.kinds, k.documented ≠ [] := by
  intro k hk
  rw [h.kinds] at hk
  obtain ⟨round, hround, rfl⟩ := List.mem_map.1 hk
  rw [← List.length_pos_iff, KindRound.length_documented, List.length_pos_iff]
  exact h.fruitful round hround

theorem kinds_ne_nil_iff (h : r.Accounts d change rounds) : r.kinds ≠ [] ↔ 0 < r.documentedCount := by
  rw [documentedCount, List.length_pos_iff, Ne, Ne, List.flatMap_eq_nil_iff]
  constructor
  · intro hkinds hnone
    obtain ⟨k, hk⟩ := List.exists_mem_of_ne_nil r.kinds hkinds
    exact h.documented_ne_nil k hk (hnone k hk)
  · intro hsome hkinds
    simp [hkinds] at hsome

end FileReport.Accounts

/-! ## One file -/

namespace Documenter

variable {σ : Type} {d : Documenter σ} {w w' : World σ} {file : Path} {change : Option FileChange}
  {changes : Option ChangeSet}

/-- **Behind every report stand its rounds**, and the file is another one
exactly when there are any. -/
theorem documentFile_accounts {r : FileReport}
    (h : Work.runIn w (d.documentFile file change) = (.ok (some r), w')) :
    r.path = file ∧ (r.changed = true ↔ r.kinds ≠ []) ∧ ∃ rounds, r.Accounts d change rounds := by
  unfold documentFile at h
  cases hplan : d.catalog.planFor file with
  | error e =>
    rw [hplan] at h
    cases h
  | ok plan =>
    rw [hplan] at h
    obtain ⟨before, w₁, -, h⟩ := Work.runIn_bind_ok.1 h
    rw [← map_eq_pure_bind, Work.runIn_map_ok] at h
    obtain ⟨draft?, hrun, hreport⟩ := h
    obtain ⟨draft, rfl, rfl⟩ := Option.map_eq_some_iff.1 hreport
    obtain ⟨rounds, hrounds⟩ := documentKinds_run d file change plan.kinds { content := before } w₁
    rw [hrun] at hrounds
    obtain ⟨_, hlinked, -, rfl⟩ := hrounds.linked
    have hended : ∀ round ∈ rounds, ∀ b ∈ round.blocks, b.Ended := fun round hround =>
      (hrounds.obtained round hround).ended
    have hkinds := hlinked.kinds_eq
    rw [List.nil_append] at hkinds
    refine ⟨rfl, ?_, rounds.filter KindRound.fruitful, hkinds, fun round hround => ?_, hlinked.rounded, w'.deeds,
      fun round hround => hrounds.obtained round (List.mem_filter.1 hround).1⟩
    · rw [FileReport.changed, decide_eq_true_iff, ne_comm, Ne, hlinked.content_eq_iff hended, hkinds, Ne,
        List.map_eq_nil_iff, List.filter_eq_nil_iff]
      simp [KindRound.fruitful]
    · simpa [KindRound.fruitful] using (List.mem_filter.1 hround).2

theorem outcomeOf_reported {r : FileReport}
    (h : Work.runIn w (d.outcomeOf changes file) = (.ok (.reported r), w')) :
    ∃ began ended, Work.runIn began (d.documentFile file (changes.bind (·.find? file))) = (.ok (some r), ended) := by
  obtain ⟨began, hchange, -⟩ := changeFor_run file changes w
  unfold outcomeOf at h
  rw [Work.runIn_bind_of_ok hchange, Work.runIn_bind_of_ok (Work.runIn_run _)] at h
  rcases hended : Work.runIn began (d.documentFile file (changes.bind (·.find? file))) with ⟨e | report?, ended⟩
  · rw [hended] at h
    cases e <;> cases h
  · rw [hended] at h
    cases report? with
    | none => cases h
    | some report =>
      cases h
      exact ⟨began, ended, hended⟩

theorem outcomes_reported {files : List Path} {os : List (Path × Outcome)}
    (h : Work.runIn w (d.outcomes changes files) = (.ok os, w')) :
    ∀ o ∈ os, ∀ r, o.2 = .reported r → r.path = o.1 ∧ (r.changed = true ↔ r.kinds ≠ []) ∧
      ∃ rounds, r.Accounts d (changes.bind (·.find? r.path)) rounds := by
  induction files generalizing w os with
  | nil =>
    cases h
    simp
  | cons file files ih =>
    obtain ⟨outcome, w₁, hfile, h⟩ := Work.runIn_bind_ok.1 h
    obtain ⟨others, w₂, hrest, h⟩ := Work.runIn_bind_ok.1 h
    cases h
    refine List.forall_mem_cons.2 ⟨?_, ih hrest⟩
    rintro r rfl
    obtain ⟨began, ended, hrun⟩ := outcomeOf_reported hfile
    obtain ⟨rfl, haccounts⟩ := documentFile_accounts hrun
    exact ⟨rfl, haccounts⟩

end Documenter

/-! ## A run -/

/-- A list that three lists make up, each in its order. -/
inductive Interleaved {α : Type} : List α → List α → List α → List α → Prop
  | nil : Interleaved [] [] [] []
  | first {all a b c : List α} (x : α) (h : Interleaved all a b c) : Interleaved (x :: all) (x :: a) b c
  | second {all a b c : List α} (x : α) (h : Interleaved all a b c) : Interleaved (x :: all) a (x :: b) c
  | third {all a b c : List α} (x : α) (h : Interleaved all a b c) : Interleaved (x :: all) a b (x :: c)

namespace RunReport

theorem interleaved (os : List (Path × Outcome)) (hpath : ∀ o ∈ os, ∀ r, o.2 = .reported r → r.path = o.1) :
    Interleaved (os.map (·.1)) ((RunReport.mk os).files.map (·.path)) ((RunReport.mk os).failures.map (·.1))
      (RunReport.mk os).skipped := by
  induction os with
  | nil => exact .nil
  | cons o os ih =>
    obtain ⟨hfile, hrest⟩ := List.forall_mem_cons.1 hpath
    obtain ⟨file, outcome⟩ := o
    cases outcome with
    | reported r =>
      obtain rfl : r.path = file := hfile r rfl
      exact .first _ (ih hrest)
    | failed e => exact .second _ (ih hrest)
    | declined => exact .third _ (ih hrest)

theorem mem_files {report : RunReport} {r : FileReport} :
    r ∈ report.files ↔ ∃ o ∈ report.outcomes, o.2 = .reported r := by
  rw [files, List.mem_filterMap]
  refine exists_congr fun o => and_congr_right fun _ => ?_
  cases o.2 <;> simp

theorem documentedCount_eq (report : RunReport) :
    report.documentedCount = (report.files.map FileReport.documentedCount).sum := by
  rw [documentedCount, List.sum_eq_foldl, List.foldl_map]

end RunReport

namespace Documenter

variable {σ : Type} {d : Documenter σ} {w w' : World σ}

/-- **The numbers of a report are those of the blocks that were put in.** In a
run that ends well every file is reported on, failed or was not wanted, in the
order of the files. A file is another one exactly when a kind is reported for
it, and then at least one construct is counted for each such kind. Behind the
report stand rounds that put in as many blocks as are counted; a block is
written in the line ending of the text that its round found unless it holds
line endings of Windows that do not belong there or has others too. -/
theorem documentFiles_tallied {files : List Path} {changes : Option ChangeSet} {report : RunReport}
    (h : Work.runIn w (d.documentFiles files changes) = (.ok report, w')) :
    Interleaved files (report.files.map (·.path)) (report.failures.map (·.1)) report.skipped ∧
      (∀ r ∈ report.files, (r.changed = true ↔ r.kinds ≠ []) ∧ (r.kinds ≠ [] ↔ 0 < r.documentedCount) ∧
        ∀ k ∈ r.kinds, k.documented ≠ []) ∧
      ∃ rounds : FileReport → List KindRound,
        (∀ r ∈ report.files, r.Accounts d (changes.bind (·.find? r.path)) (rounds r) ∧
          r.documentedCount = ((rounds r).flatMap KindRound.blocks).length ∧
          ∀ round ∈ rounds r, ∀ b ∈ round.blocks,
            (Text.EndedIn (Text.lineEnding round.before.content)
                (Block.withEnding (Text.lineEnding round.before.content) b.text) ↔
              (Text.holds Text.crlf b.text = true →
                Text.lineEnding round.before.content = Text.crlf ∧ b.text.Windows))) ∧
        report.documentedCount = (report.files.flatMap fun r => (rounds r).flatMap KindRound.blocks).length := by
  obtain ⟨os, w₁, hos, h⟩ := Work.runIn_bind_ok.1 h
  cases h
  have hreported := outcomes_reported hos
  have hfiles : ∀ r ∈ (RunReport.mk os).files, (r.changed = true ↔ r.kinds ≠ []) ∧
      ∃ rounds, r.Accounts d (changes.bind (·.find? r.path)) rounds := by
    intro r hr
    obtain ⟨o, ho, hor⟩ := RunReport.mem_files.1 hr
    exact (hreported o ho r hor).2
  have hsome (r : FileReport) : ∃ rounds, r ∈ (RunReport.mk os).files →
      r.Accounts d (changes.bind (·.find? r.path)) rounds := by
    by_cases hr : r ∈ (RunReport.mk os).files
    · obtain ⟨rounds, haccounts⟩ := (hfiles r hr).2
      exact ⟨rounds, fun _ => haccounts⟩
    · exact ⟨[], fun hr' => absurd hr' hr⟩
  obtain ⟨rounds, hrounds⟩ := Classical.skolem.1 hsome
  refine ⟨?_, fun r hr => ?_, rounds, fun r hr => ?_, ?_⟩
  · rw [← outcomes_paths hos]
    exact RunReport.interleaved os fun o ho r hor => (hreported o ho r hor).1
  · exact ⟨(hfiles r hr).1, (hrounds r hr).kinds_ne_nil_iff, (hrounds r hr).documented_ne_nil⟩
  · exact ⟨hrounds r hr, (hrounds r hr).documentedCount_eq, fun round _ b _ =>
      b.endedIn_written_iff (Text.lineEnding_cases round.before.content)⟩
  · rw [RunReport.documentedCount_eq, List.length_flatMap]
    exact congrArg List.sum (List.map_congr_left fun r hr => (hrounds r hr).documentedCount_eq)

end Documenter

/-- A run that is known to end well by something about its report. -/
theorem exists_report {σ β : Type} {out : Except Failure RunReport × World σ} {f : RunReport → β} {x : β}
    (h : out.1.toOption.map f = some x) : ∃ report w', out = (.ok report, w') ∧ f report = x := by
  obtain ⟨result, w'⟩ := out
  obtain ⟨report, hreport, hf⟩ := Option.map_eq_some_iff.1 h
  exact ⟨report, w', congrArg (·, w') (eq_ok_of_toOption hreport), hf⟩

/-! ## Three files, each with another end -/

namespace ThreeEnds

def documented : Path := ⟨"a.py"⟩

def unknown : Path := ⟨"b.txt"⟩

def unwanted : Path := ⟨"c.py"⟩

def files : List Path := [documented, unknown, unwanted]

def text : Text := "def f(x):\n    pass\n"

def documenter : Documenter Script := { catalog := .ofFormats [.python], prompter := .scripted }

/-- The user wants the first file that is shown, and not the second. -/
def world : World Script :=
  { tree := { nodes := [(["a.py"], .file (.text text)), (["b.txt"], .file (.text text)),
      (["c.py"], .file (.text text))] }
    prompt := { confirms := [.give true, .give false] } }

def outcome : Except Failure RunReport × World Script :=
  Work.runIn world (documenter.documentFiles files none)

/-- The parts of a report by the paths of the files. -/
def parts (report : RunReport) : List (Path × List KindReport) × List Path × List Path :=
  (report.files.map fun r => (r.path, r.kinds), report.failures.map (·.1), report.skipped)

set_option maxRecDepth 100000 in
theorem ended : outcome.1.toOption.map parts =
    some ([(documented, [⟨.header, ["a.py"]⟩, ⟨.method, ["f"]⟩])], [unknown], [unwanted]) := by decide +kernel

/-- A header and a method were documented. -/
theorem documentFiles_tallied_ends :
    ∃ report w', Work.runIn world (documenter.documentFiles files none) = (.ok report, w') ∧
      Interleaved files [documented] [unknown] [unwanted] ∧ ∃ r ∈ report.files, r.changed = true ∧
        ∃ rounds, r.Accounts documenter none rounds ∧ (rounds.flatMap KindRound.blocks).length = 2 := by
  obtain ⟨report, w', hrun, hparts⟩ := exists_report ended
  obtain ⟨hinterleaved, hcounts, rounds, hrounds, -⟩ := Documenter.documentFiles_tallied hrun
  simp only [parts, Prod.mk.injEq] at hparts
  obtain ⟨hfiles, hfailures, hskipped⟩ := hparts
  have hpaths : report.files.map (·.path) = [documented] := by
    simpa [List.map_map, Function.comp_def] using congrArg (List.map Prod.fst) hfiles
  rw [hpaths, hfailures, hskipped] at hinterleaved
  obtain ⟨r, hr, hkinds⟩ : ∃ r ∈ report.files, r.kinds = [⟨.header, ["a.py"]⟩, ⟨.method, ["f"]⟩] := by
    have hmem : (documented, [⟨.header, ["a.py"]⟩, ⟨.method, ["f"]⟩]) ∈ report.files.map fun r => (r.path, r.kinds) := by
      rw [hfiles]
      exact List.mem_singleton_self _
    obtain ⟨r, hr, hparts⟩ := List.mem_map.1 hmem
    exact ⟨r, hr, (Prod.mk.inj hparts).2⟩
  obtain ⟨haccounts, hcount, -⟩ := hrounds r hr
  refine ⟨report, w', hrun, hinterleaved, r, hr, (hcounts r hr).1.2 (by simp [hkinds]), rounds r, haccounts, ?_⟩
  rw [← hcount, FileReport.documentedCount, hkinds]
  rfl

end ThreeEnds

/-! ## An argument that is told on two lines -/

namespace Text

/-- As many line feeds at most as carriage returns. -/
theorem Windows.feeds_le {t : Text} (h : t.Windows) : t.feeds ≤ t.count '\r' := by
  have hcount (u : Text) (afterReturn : Bool) (hu : feedsReturned afterReturn u = true) :
      u.feeds ≤ u.count '\r' + if afterReturn then 1 else 0 := by
    induction u generalizing afterReturn with
    | nil => simp
    | cons c u ih =>
      simp only [feedsReturned, Bool.and_eq_true, Bool.or_eq_true, bne_iff_ne] at hu
      have hrest := ih _ hu.2
      rw [feeds_cons, List.count_cons]
      by_cases hfeed : c = '\n'
      · have hafter : afterReturn = true := hu.1.resolve_left (by simp [hfeed])
        have hother : ('\n' : Char) ≠ '\r' := by decide
        simp only [hfeed, hafter, hother, beq_iff_eq, if_true, if_false] at hrest ⊢
        omega
      · by_cases hreturn : c = '\r'
        · subst hreturn
          simp only [hfeed, beq_self_eq_true, if_true, if_false] at hrest ⊢
          omega
        · simp only [hfeed, hreturn, beq_iff_eq, if_false] at hrest ⊢
          omega
  have := hcount t false ((feedsReturned_iff [] (by simp)).2 h)
  simpa using this

end Text

namespace TwoLinesTold

/-- A text into which pieces were put, anywhere and one after the other. -/
inductive Grown : Text → List Text → Text → Prop
  | nil (t : Text) : Grown t [] t
  | cons {head tail t' : Text} {pieces : List Text} (piece : Text)
      (h : Grown (head ++ piece ++ tail) pieces t') : Grown (head ++ tail) (piece :: pieces) t'

theorem Grown.feeds_le {t t' : Text} {pieces : List Text} (h : Grown t pieces t')
    (hpieces : ∀ p ∈ pieces, p.Windows) (ht : t.feeds ≤ t.count '\r') : t'.feeds ≤ t'.count '\r' := by
  induction h with
  | nil t => exact ht
  | cons piece h ih =>
    obtain ⟨hpiece, hpieces⟩ := List.forall_mem_cons.1 hpieces
    refine ih hpieces ?_
    have := hpiece.feeds_le
    simp only [Text.feeds_append, List.count_append] at ht ⊢
    omega

def file : Path := ⟨"a.py"⟩

def text : Text := "def f(x):\r\n    pass\r\n"

def documenter : Documenter Script := { catalog := .ofFormats [.python], prompter := .scripted }

/-- The user breaks the line like the file does. -/
def world : World Script :=
  { tree := { nodes := [(["a.py"], .file (.text text))] }
    prompt := { argumentDocs := [.give "one\r\ntwo"] } }

def outcome : Except Failure RunReport × World Script :=
  Work.runIn world (documenter.documentFiles [file] none)

def updated : Text :=
  ("\"\"\"\r\nDocs of top a.py.\r\n\"\"\"\r\ndef f(x):\r\n    \"\"\"\n    Docs of method f.\n\n" ++
    "    Parameters\n    ----------\n    str x: one\r\n    two\n    \"\"\"\n    pass\r\n").toList

set_option maxRecDepth 100000 in
theorem ended : outcome.1.toOption.map (fun report => report.files.map fun r => (r.before, r.updated)) =
    some [(text, updated)] := by decide +kernel

/-- The file had line endings of Windows only, and what is left of it is not the
file with pieces put in that have no others. -/
theorem bare_feeds :
    ∃ report w', Work.runIn world (documenter.documentFiles [file] none) = (.ok report, w') ∧
      ∃ r ∈ report.files, Text.lineEnding r.before = Text.crlf ∧ r.before.Windows ∧
        ¬∃ pieces, (∀ p ∈ pieces, p.Windows) ∧ Grown r.before pieces r.updated := by
  obtain ⟨report, w', hrun, hfiles⟩ := exists_report ended
  have hmem : (text, updated) ∈ report.files.map fun r => (r.before, r.updated) := by
    rw [hfiles]
    exact List.mem_singleton_self _
  obtain ⟨r, hr, htexts⟩ := List.mem_map.1 hmem
  obtain ⟨hbefore, hupdated⟩ := Prod.mk.inj htexts
  refine ⟨report, w', hrun, r, hr, ?_, ?_, ?_⟩
  · rw [hbefore]
    decide
  · rw [hbefore]
    decide
  · rintro ⟨pieces, hpieces, hgrown⟩
    rw [hbefore, hupdated] at hgrown
    have hmore : ¬updated.feeds ≤ updated.count '\r' := by decide +kernel
    exact hmore (hgrown.feeds_le hpieces (by decide))

end TwoLinesTold
end DocScribe
