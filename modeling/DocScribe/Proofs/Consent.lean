/-
Consent before work.

A run is any sequence of calls on one documenter. `Visit` says what one visit
to a file does: a file that came up before is worked on without a question, any
other is announced, the user is asked for consent, and work follows only when
the user agrees. `Ledger` is what a run keeps: the deeds that concern a file
are the request for consent, once, and then work. Work that the user did not
agree to is done only on a file that came up more than once
(`Documenter.work_after_request`), and it is done there
(`RefusedOnce.worked_without_consent`).
-/
import DocScribe.Prompt.Scripted
import DocScribe.Proofs.Deeds
import DocScribe.Proofs.PathFacts
import DocScribe.Proofs.PythonGrammar

namespace DocScribe

/-! ## Files and deeds -/

theorem World.knows_congr {σ : Type} (w : World σ) {p q : Path} (h : p.same q = true) : w.Knows p ↔ w.Knows q := by
  unfold World.Knows Path.same
  rw [Path.same_iff.1 h]

namespace Deed

/-- The file that a deed works on, by a question about one of its constructs or
by a write, refused or not. -/
def target? : Deed → Option Path
  | .asked q _ => q.candidate?.map (·.file)
  | .wrote file _ _ => some file
  | .announced _ => none

def worksOn (p : Path) (x : Deed) : Bool := x.target?.any (·.same p)

/-- The answer of the user to the request for consent to work on a file. -/
def reply? (p : Path) : Deed → Option (Except Failure Bool)
  | .asked (.confirm file) answer => if file.same p then some answer else none
  | _ => none

/-- Whether a deed is work on a file, or the request for consent to it. -/
def concerns (p : Path) (x : Deed) : Bool := x.worksOn p || (x.reply? p).isSome

theorem Inquiry.target? {file : Path} {x : Deed} (h : x.Inquiry file) : x.target? = some file := by
  cases x with
  | asked q answer =>
    obtain ⟨c, hc, rfl⟩ := h
    rw [Deed.target?, hc]
    rfl
  | announced f => exact h.elim
  | wrote f t result => exact h.elim

theorem reply?_of_target? {file p : Path} {x : Deed} (h : x.target? = some file) : x.reply? p = none := by
  cases x with
  | asked q answer =>
    cases q with
    | confirm f => simp [target?, Question.candidate?] at h
    | _ => rfl
  | announced f => rfl
  | wrote f t result => rfl

theorem concerns_of_target? {file p : Path} {x : Deed} (h : x.target? = some file) : x.concerns p = file.same p := by
  rw [concerns, worksOn, reply?_of_target? h, h]
  simp

theorem reply?_of_worksOn {p : Path} {x : Deed} (h : x.worksOn p = true) : x.reply? p = none := by
  rw [worksOn, Option.any_eq_true] at h
  obtain ⟨file, hfile, -⟩ := h
  exact reply?_of_target? hfile

end Deed

/-- The deeds that concern a file. -/
def concerning (p : Path) (deeds : List Deed) : List Deed := deeds.filter (Deed.concerns p)

/-- The answers to the requests for consent to work on a file. -/
def replies (p : Path) (deeds : List Deed) : List (Except Failure Bool) := deeds.filterMap (Deed.reply? p)

theorem concerning_append (p : Path) (a b : List Deed) : concerning p (a ++ b) = concerning p a ++ concerning p b :=
  List.filter_append ..

theorem replies_concerning (p : Path) (deeds : List Deed) : replies p (concerning p deeds) = replies p deeds := by
  rw [replies, concerning, List.filterMap_filter]
  congr 1
  funext x
  cases hreply : x.reply? p with
  | none => simp
  | some answer => simp [Deed.concerns, hreply]

theorem replies_append (p : Path) (a b : List Deed) : replies p (a ++ b) = replies p a ++ replies p b :=
  List.filterMap_append

theorem replies_of_work {p : Path} {work : List Deed} (h : ∀ x ∈ work, x.worksOn p = true) : replies p work = [] :=
  List.filterMap_eq_nil_iff.2 fun x hx => Deed.reply?_of_worksOn (h x hx)

theorem concerning_of_work {p file : Path} {work : List Deed} (h : ∀ x ∈ work, x.target? = some file) :
    concerning p work = if file.same p then work else [] := by
  split
  · next hsame => exact List.filter_eq_self.2 fun x hx => (Deed.concerns_of_target? (h x hx)).trans hsame
  · next hother =>
    refine List.filter_eq_nil_iff.2 fun x hx => ?_
    rwa [Deed.concerns_of_target? (h x hx)]

/-- What concerns a file of the first visit to one. -/
theorem concerning_first {p file : Path} {answer : Except Failure Bool} {work : List Deed}
    (h : ∀ x ∈ work, x.target? = some file) :
    concerning p (.announced file :: .asked (.confirm file) answer :: work) =
      if file.same p then .asked (.confirm file) answer :: work else [] := by
  have hannounced : Deed.concerns p (.announced file) = false := rfl
  have hasked : Deed.concerns p (.asked (.confirm file) answer) = file.same p := by
    cases hsame : file.same p <;> simp [Deed.concerns, Deed.worksOn, Deed.target?, Question.candidate?, Deed.reply?, hsame]
  have hwork : work.filter (Deed.concerns p) = _ := concerning_of_work h
  rw [concerning, List.filter_cons_of_neg (by simp [hannounced]), List.filter_cons, hasked, hwork]
  cases file.same p <;> rfl

/-- Deeds that do not concern a file. -/
theorem World.Grows.elsewhere {σ : Type} {w w' : World σ} {p file : Path} {deeds : List Deed} {files : List Path}
    (h : w.Grows file w' deeds files) (hdeeds : concerning p deeds = []) (hfiles : ∀ f ∈ files, f.same p = false) :
    (w'.Knows p ↔ w.Knows p) ∧ concerning p w'.deeds = concerning p w.deeds := by
  constructor
  · have hnone : (files.any fun known => known.same p) = false := List.any_eq_false.2 fun f hf => by simp [hfiles f hf]
    rw [World.Knows, h.announced_eq, List.any_append, hnone, Bool.false_or]
    rfl
  · rw [h.deeds_eq, concerning_append, hdeeds, List.append_nil]

/-! ## A visit -/

/-- What one visit to a file does. -/
inductive Visit {σ : Type} (file : Path) (w w' : World σ) : Prop
  /-- Nothing was found. -/
  | idle (hgrows : w.Grows file w' [] [])
  /-- The file came up before. -/
  | again {work : List Deed} (hknown : w.Knows file) (hgrows : w.Grows file w' work [])
      (hwork : ∀ x ∈ work, x.target? = some file)
  /-- The user was asked. -/
  | first {answer : Except Failure Bool} {work : List Deed} (hnew : ¬w.Knows file)
      (hgrows : w.Grows file w' (.announced file :: .asked (.confirm file) answer :: work) [file])
      (hwork : ∀ x ∈ work, x.target? = some file) (hrefused : answer = .ok true ∨ work = [])

namespace Visit

variable {σ : Type} {file : Path} {w w₁ w₂ : World σ}

/-- A visit that starts in a world which nothing tells from another. -/
theorem of_idle (h₁ : w.Grows file w₁ [] []) (h₂ : Visit file w₁ w₂) : Visit file w w₂ := by
  have hknows : w₁.Knows file ↔ w.Knows file := by rw [World.Knows, h₁.announced_eq]; rfl
  cases h₂ with
  | idle hgrows => exact .idle (h₁.trans hgrows)
  | again hknown hgrows hwork => exact .again (hknows.1 hknown) (h₁.trans hgrows) hwork
  | first hnew hgrows hwork hrefused => exact .first (fun h => hnew (hknows.2 h)) (h₁.trans hgrows) hwork hrefused

theorem then_idle (h₁ : Visit file w w₁) (h₂ : w₁.Grows file w₂ [] []) : Visit file w w₂ := by
  have hgrows {deeds : List Deed} {files : List Path} (h : w.Grows file w₁ deeds files) :
      w.Grows file w₂ deeds files := by
    have hboth := h.trans h₂
    rwa [List.append_nil] at hboth
  cases h₁ with
  | idle h => exact .idle (hgrows h)
  | again hknown h hwork => exact .again hknown (hgrows h) hwork
  | first hnew h hwork hrefused => exact .first hnew (hgrows h) hwork hrefused

/-- Work on a file that came up before. -/
theorem work_of_knows (hknown : w.Knows file) (h : Visit file w w₁) :
    ∃ work, w.Grows file w₁ work [] ∧ ∀ x ∈ work, x.target? = some file := by
  cases h with
  | idle hgrows => exact ⟨[], hgrows, by simp⟩
  | again _ hgrows hwork => exact ⟨_, hgrows, hwork⟩
  | first hnew _ _ _ => exact absurd hknown hnew

/-- A visit adds to what was done. -/
theorem deeds_grow (h : Visit file w w₁) : w.deeds <+: w₁.deeds := by
  cases h with
  | idle hgrows => exact ⟨_, hgrows.deeds_eq.symm⟩
  | again _ hgrows _ => exact ⟨_, hgrows.deeds_eq.symm⟩
  | first _ hgrows _ _ => exact ⟨_, hgrows.deeds_eq.symm⟩

/-- A visit concerns no other file. -/
theorem elsewhere {p : Path} (h : Visit file w w₁) (hother : ¬file.same p = true) :
    (w₁.Knows p ↔ w.Knows p) ∧ concerning p w₁.deeds = concerning p w.deeds := by
  cases h with
  | idle hgrows => exact hgrows.elsewhere rfl (by simp)
  | again hknown hgrows hwork => exact hgrows.elsewhere (by rw [concerning_of_work hwork, if_neg hother]) (by simp)
  | first hnew hgrows hwork hrefused =>
    exact hgrows.elsewhere (by rw [concerning_first hwork, if_neg hother]) (by simpa using hother)

/-- Consent, some work, and then a visit. -/
theorem of_admitted {w₀ : World σ} {work : List Deed} (hadmitted : Documenter.Admitted file w w₀)
    (hgrows : w₀.Grows file w₁ work []) (hwork : ∀ x ∈ work, x.target? = some file) (h : Visit file w₁ w₂) :
    Visit file w w₂ := by
  obtain ⟨work', hgrows', hwork'⟩ := h.work_of_knows (hgrows.knows hadmitted.knows)
  have hall : ∀ x ∈ work ++ work', x.target? = some file := fun x hx => (List.mem_append.1 hx).elim (hwork x) (hwork' x)
  cases hadmitted with
  | before hknown hbefore => exact .again hknown (hbefore.trans (hgrows.trans hgrows')) hall
  | now hnew hnow => exact .first hnew (hnow.trans (hgrows.trans hgrows')) hall (.inl rfl)

end Visit

namespace Documenter

variable {σ : Type} {d : Documenter σ} {file : Path} {w w' : World σ}

/-- What filling a kind of construct does is work on the file. -/
theorem Fills.work {k : KindPlan} {cs : List Candidate} {draft : Draft} {out : Except Failure Draft × World σ}
    (h : d.Fills file k cs draft w out) :
    ∃ work, w.Grows file out.2 work [] ∧ ∀ x ∈ work, x.target? = some file := by
  cases h with
  | failed hasked hgrows => exact ⟨_, hgrows, fun x hx => (hasked x hx).target?⟩
  | refused hasked hgrows _ hrefused =>
    refine ⟨_, hgrows.trans hrefused, fun x hx => ?_⟩
    rcases List.mem_append.1 hx with hx | hx
    · exact (hasked x hx).target?
    · rw [List.mem_singleton.1 hx]
      rfl
  | filled hasked _ hgrows _ hwrites =>
    refine ⟨_, hgrows.trans hwrites, fun x hx => ?_⟩
    rcases List.mem_append.1 hx with hx | hx
    · exact (hasked x hx).target?
    · obtain ⟨t, -, rfl⟩ := List.mem_map.1 hx
      rfl

theorem visit_documentKinds (d : Documenter σ) (file : Path) (change : Option FileChange) (kinds : List KindPlan)
    (draft : Draft) (w : World σ) : Visit file w (Work.runIn w (d.documentKinds file change kinds draft)).2 := by
  induction kinds generalizing draft w with
  | nil => exact .idle (.refl file w)
  | cons k kinds ih =>
    unfold documentKinds
    generalize hout : Work.runIn w (d.documentKind file change k draft) = out
    have hrun := documentKind_run d file change k draft w
    rw [hout] at hrun
    cases hrun with
    | @idle w₁ _ hgrows =>
      rw [Work.runIn_bind_of_ok hout]
      exact .of_idle hgrows (ih draft w₁)
    | @refused answer w₁ hnew _ hgrows =>
      match answer, hout with
      | .ok b, hout =>
        rw [Work.runIn_bind_of_ok hout]
        exact .first hnew hgrows (by simp) (.inr rfl)
      | .error e, hout =>
        rw [Work.runIn_bind_of_error hout]
        exact .first hnew hgrows (by simp) (.inr rfl)
    | @worked w₀ w₁ ended hadmitted hfills =>
      obtain ⟨work, hgrows, hwork⟩ := hfills.work
      match ended, hout with
      | .ok next, hout =>
        rw [Work.runIn_bind_of_ok hout]
        exact .of_admitted hadmitted hgrows hwork (ih next w₁)
      | .error e, hout =>
        rw [Work.runIn_bind_of_error hout]
        exact .of_admitted hadmitted hgrows hwork (.idle (.refl file w₁))

theorem visit_documentFile (d : Documenter σ) (file : Path) (change : Option FileChange) (w : World σ) :
    Visit file w (Work.runIn w (d.documentFile file change)).2 := by
  unfold documentFile
  cases d.catalog.planFor file with
  | error e => exact .idle (.refl file w)
  | ok plan =>
    dsimp only
    cases hread : w.tree.read file with
    | error fault =>
      rw [Work.runIn_bind_of_error (Work.runIn_read_error hread)]
      exact .idle (.refl file w)
    | ok t =>
      rw [Work.runIn_bind_of_ok (Work.runIn_read hread), ← map_eq_pure_bind, Work.runIn_map]
      exact visit_documentKinds d file change plan.kinds { content := t } w

/-- Looking a file up in a change set does nothing else. -/
theorem changeFor_run (file : Path) (changes : Option ChangeSet) (w : World σ) :
    ∃ w₁, Work.runIn w (changeFor file changes) = (.ok (changes.bind (·.find? file)), w₁) ∧
      w.Grows file w₁ [] [] := by
  cases changes with
  | none => exact ⟨_, rfl, .refl file w⟩
  | some set =>
    simp only [changeFor, Option.bind_some]
    split
    · exact ⟨_, rfl, .of_tree_eq (List.append_nil _).symm rfl rfl rfl⟩
    · exact ⟨_, rfl, .refl file w⟩

theorem visit_outcomeOf (d : Documenter σ) (changes : Option ChangeSet) (file : Path) (w : World σ) :
    Visit file w (Work.runIn w (d.outcomeOf changes file)).2 := by
  obtain ⟨w₁, hchange, hgrows⟩ := changeFor_run file changes w
  have hvisit := visit_documentFile d file (changes.bind (·.find? file)) w₁
  unfold outcomeOf
  rw [Work.runIn_bind_of_ok hchange, Work.runIn_bind_of_ok (Work.runIn_run _)]
  refine .of_idle hgrows ?_
  generalize Work.runIn w₁ (d.documentFile file (changes.bind (·.find? file))) = out at hvisit ⊢
  obtain ⟨ended, w₂⟩ := out
  have hnote : w₂.Grows file (Work.runIn w₂ (Work.note [.fileFailed file])).2 [] [] :=
    .of_tree_eq (List.append_nil _).symm rfl rfl rfl
  match ended, hvisit with
  | .ok (some report), hvisit => exact hvisit
  | .ok none, hvisit => exact hvisit
  | .error e, hvisit =>
    cases e with
    | cancelled => exact hvisit
    | _ => exact hvisit.then_idle hnote

/-! ## Runs -/

/-- A call on a documenter. -/
inductive Call where
  | file (p : Path) (change : Option FileChange)
  | files (ps : List Path) (changes : Option ChangeSet)

/-- The files that a call is to document, one after the other. -/
def Call.paths : Call → List Path
  | .file p _ => [p]
  | .files ps _ => ps

/-- The world after a call, whether it failed or not. -/
def perform (d : Documenter σ) (w : World σ) : Call → World σ
  | .file p change => (Work.runIn w (d.documentFile p change)).2
  | .files ps changes => (Work.runIn w (d.documentFiles ps changes)).2

/-- The world after some calls. -/
def performAll (d : Documenter σ) (w : World σ) (calls : List Call) : World σ := calls.foldl d.perform w

/-- How often a file comes up. -/
def visits (p : Path) (paths : List Path) : Nat := paths.countP (·.same p)

/-- What a run keeps about a file that came up so many times: the deeds that
concern it, once it is known, are the request for consent and then work, which
needs the consent or another visit. -/
structure Accounted (p : Path) (visits : Nat) (w : World σ) : Prop where
  unknown : ¬w.Knows p → concerning p w.deeds = []
  known : w.Knows p → 1 ≤ visits ∧ ∃ request answer work, concerning p w.deeds = request :: work ∧
    request.reply? p = some answer ∧ (∀ x ∈ work, x.worksOn p = true) ∧
      (answer = .ok true ∨ work = [] ∨ 2 ≤ visits)

namespace Accounted

variable {p : Path} {n m : Nat}

/-- A visit that does not concern the file. -/
theorem of_eq (h : Accounted p n w) (hle : n ≤ m) (hknows : w'.Knows p ↔ w.Knows p)
    (hdeeds : concerning p w'.deeds = concerning p w.deeds) : Accounted p m w' where
  unknown hnew := hdeeds.trans (h.unknown fun hknown => hnew (hknows.2 hknown))
  known hknown := by
    obtain ⟨hn, request, answer, work, hconcerning, hreply, hwork, hconsent⟩ := h.known (hknows.1 hknown)
    exact ⟨by omega, request, answer, work, hdeeds.trans hconcerning, hreply, hwork,
      hconsent.imp_right (·.imp_right fun htwice => by omega)⟩

/-- A visit to a file that came up before. -/
theorem again {work : List Deed} (h : Accounted p n w) (hsame : file.same p = true) (hknown : w.Knows file)
    (hgrows : w.Grows file w' work []) (hwork : ∀ x ∈ work, x.target? = some file) : Accounted p (n + 1) w' := by
  obtain ⟨hn, request, answer, work₀, hconcerning, hreply, hwork₀, -⟩ := h.known ((w.knows_congr hsame).1 hknown)
  refine ⟨fun hnew => absurd (hgrows.knows ((w.knows_congr hsame).1 hknown)) hnew, fun _ => ?_⟩
  refine ⟨by omega, request, answer, work₀ ++ work, ?_, hreply, ?_, .inr (.inr (by omega))⟩
  · rw [hgrows.deeds_eq, concerning_append, hconcerning, concerning_of_work hwork, if_pos hsame]
    rfl
  · intro x hx
    rcases List.mem_append.1 hx with hx | hx
    · exact hwork₀ x hx
    · rw [Deed.worksOn, hwork x hx]
      exact hsame

/-- The first visit to a file. -/
theorem first {answer : Except Failure Bool} {work : List Deed} (h : Accounted p n w) (hsame : file.same p = true)
    (hnew : ¬w.Knows file)
    (hgrows : w.Grows file w' (.announced file :: .asked (.confirm file) answer :: work) [file])
    (hwork : ∀ x ∈ work, x.target? = some file) (hrefused : answer = .ok true ∨ work = []) :
    Accounted p (n + 1) w' := by
  have hknown : w'.Knows p := by
    rw [World.Knows, hgrows.announced_eq]
    simp [hsame]
  refine ⟨fun hnew' => absurd hknown hnew', fun _ => ?_⟩
  refine ⟨by omega, .asked (.confirm file) answer, answer, work, ?_, if_pos hsame, ?_, ?_⟩
  · have hnone := h.unknown fun hold => hnew ((w.knows_congr hsame).2 hold)
    rw [hgrows.deeds_eq, concerning_append, hnone, concerning_first hwork, if_pos hsame]
    rfl
  · intro x hx
    rw [Deed.worksOn, hwork x hx]
    exact hsame
  · exact hrefused.imp_right .inl

end Accounted

/-- What a run keeps about every file, given the paths that came up. -/
def Ledger (paths : List Path) (w : World σ) : Prop := ∀ p, Accounted p (visits p paths) w

namespace Ledger

variable {paths : List Path}

theorem start (tree : FileTree) (prompt : σ) : Ledger [] ({ tree, prompt } : World σ) :=
  fun _ => ⟨fun _ => rfl, fun hknown => by simp [World.Knows] at hknown⟩

/-- Paths that come up without anything being done. -/
theorem append (h : Ledger paths w) (more : List Path) : Ledger (paths ++ more) w :=
  fun p => (h p).of_eq (by simp [visits]) .rfl rfl

/-- One visit. -/
theorem visit (h : Ledger paths w) (hvisit : Visit file w w') : Ledger (paths ++ [file]) w' := by
  intro p
  by_cases hsame : file.same p = true
  · have hvisits : visits p (paths ++ [file]) = visits p paths + 1 := by simp [visits, hsame]
    rw [hvisits]
    cases hvisit with
    | idle hgrows =>
      obtain ⟨hknows, hdeeds⟩ := hgrows.elsewhere (p := p) rfl (by simp)
      exact (h p).of_eq (Nat.le_succ _) hknows hdeeds
    | again hknown hgrows hwork => exact (h p).again hsame hknown hgrows hwork
    | first hnew hgrows hwork hrefused => exact (h p).first hsame hnew hgrows hwork hrefused
  · obtain ⟨hknows, hdeeds⟩ := hvisit.elsewhere hsame
    exact (h p).of_eq (by simp [visits]) hknows hdeeds

theorem outcomes (d : Documenter σ) (changes : Option ChangeSet) (files : List Path) (h : Ledger paths w) :
    Ledger (paths ++ files) (Work.runIn w (d.outcomes changes files)).2 := by
  induction files generalizing paths w with
  | nil => exact h.append []
  | cons file files ih =>
    have hvisit := h.visit (visit_outcomeOf d changes file w)
    rw [List.append_cons]
    unfold Documenter.outcomes
    rcases hout : Work.runIn w (d.outcomeOf changes file) with ⟨e | outcome, w₁⟩
    · rw [Work.runIn_bind_of_error hout]
      rw [hout] at hvisit
      exact hvisit.append files
    · rw [Work.runIn_bind_of_ok hout, ← map_eq_pure_bind, Work.runIn_map]
      rw [hout] at hvisit
      exact ih hvisit

theorem perform (d : Documenter σ) (call : Call) (h : Ledger paths w) :
    Ledger (paths ++ call.paths) (d.perform w call) := by
  cases call with
  | file p change => exact h.visit (visit_documentFile d p change w)
  | files ps changes =>
    have hrun : d.perform w (.files ps changes) = (Work.runIn w (d.outcomes changes ps)).2 := by
      rw [Documenter.perform, Documenter.documentFiles, ← map_eq_pure_bind, Work.runIn_map]
    rw [hrun]
    exact h.outcomes d changes ps

theorem performAll (d : Documenter σ) (calls : List Call) (h : Ledger paths w) :
    Ledger (paths ++ calls.flatMap Call.paths) (d.performAll w calls) := by
  induction calls generalizing paths w with
  | nil => exact h.append []
  | cons call calls ih =>
    rw [List.flatMap_cons, ← List.append_assoc]
    exact ih (h.perform d call)

end Ledger

/-- **Work on a file comes after the request for consent to it.** The user is
asked once, before any work on the file; the work is done with the consent of
the user, or else the file came up more than once. -/
theorem work_after_request (d : Documenter σ) (tree : FileTree) (prompt : σ) (calls : List Call) (p : Path)
    {before after : List Deed} {deed : Deed}
    (hdeeds : (d.performAll { tree, prompt } calls).deeds = before ++ deed :: after) (hwork : deed.worksOn p = true) :
    ∃ answer, replies p before = [answer] ∧ replies p after = [] ∧
      (answer = .ok true ∨ 2 ≤ visits p (calls.flatMap Call.paths)) := by
  have haccount := (Ledger.start tree prompt).performAll d calls p
  have hconcerning : concerning p (d.performAll { tree, prompt } calls).deeds =
      concerning p before ++ deed :: concerning p after := by
    rw [hdeeds, concerning_append, concerning, concerning, List.filter_cons_of_pos (by simp [Deed.concerns, hwork])]
    rfl
  by_cases hknown : (d.performAll { tree, prompt } calls).Knows p
  · obtain ⟨-, request, answer, work, hwhole, hreply, hwork', hconsent⟩ := haccount.known hknown
    rw [hconcerning] at hwhole
    cases hbefore : concerning p before with
    | nil =>
      -- the request itself is no work
      rw [hbefore] at hwhole
      obtain ⟨rfl, -⟩ := List.cons.inj hwhole
      rw [Deed.reply?_of_worksOn hwork] at hreply
      exact absurd hreply (by simp)
    | cons request' work₀ =>
      rw [hbefore] at hwhole
      obtain ⟨rfl, rfl⟩ := List.cons.inj hwhole
      have hnone : replies p work₀ = [] := replies_of_work fun x hx => hwork' x (by simp [hx])
      refine ⟨answer, ?_, ?_, ?_⟩
      · rw [← replies_concerning, hbefore, ← List.singleton_append, replies_append, hnone, replies, List.append_nil,
          List.filterMap_cons_some hreply]
        rfl
      · rw [← replies_concerning]
        exact replies_of_work fun x hx => hwork' x (by simp [hx])
      · simpa using hconsent
  · rw [haccount.unknown hknown] at hconcerning
    simp at hconcerning

end Documenter

/-! ## One refusal, two visits -/

namespace RefusedOnce

def file : Path := ⟨"a.py"⟩

def text : Text := "def f():\n    pass\n"

def documenter : Documenter Script := { catalog := .ofFormats [.python], prompter := .scripted }

def run (confirms : List (Prepared Bool)) (calls : List Documenter.Call) : World Script :=
  documenter.performAll { tree := { nodes := [(["a.py"], .file (.text text))] }, prompt := { confirms } } calls

set_option maxRecDepth 100000 in
theorem worked : (run [] [.file file none]).deeds.any (Deed.worksOn file) = true := by decide +kernel

/-- Work on a file that came up once was agreed to. -/
theorem work_after_request_once :
    ∃ before deed after, (run [] [.file file none]).deeds = before ++ deed :: after ∧ deed.worksOn file = true ∧
      replies file before = [.ok true] := by
  obtain ⟨deed, hmem, hwork⟩ := List.any_eq_true.1 worked
  obtain ⟨before, after, hdeeds⟩ := List.append_of_mem hmem
  obtain ⟨answer, hreplies, -, hanswer⟩ :=
    Documenter.work_after_request documenter _ _ [.file file none] file hdeeds hwork
  have hconsent : answer = .ok true := hanswer.resolve_right (by decide)
  exact ⟨before, deed, after, hdeeds, hwork, by rw [hreplies, hconsent]⟩

/-- Two calls for the same file; the user declines it. -/
def refused : World Script := run [.give false] [.file file none, .file file none]

set_option maxRecDepth 100000 in
theorem deeds_refused :
    (replies file refused.deeds).map Except.toOption = [some false] ∧
      refused.deeds.any (Deed.worksOn file) = true := by decide +kernel

/-- The second visit works on the file all the same. -/
theorem worked_without_consent :
    ∃ before deed after, refused.deeds = before ++ deed :: after ∧ deed.worksOn file = true ∧
      .ok true ∉ replies file before := by
  obtain ⟨deed, hmem, hwork⟩ := List.any_eq_true.1 deeds_refused.2
  obtain ⟨before, after, hdeeds⟩ := List.append_of_mem hmem
  refine ⟨before, deed, after, hdeeds, hwork, fun hconsent => ?_⟩
  have hgiven : some true ∈ (replies file refused.deeds).map Except.toOption := by
    rw [hdeeds, replies_append, List.map_append]
    exact List.mem_append_left _ (List.mem_map_of_mem hconsent)
  rw [deeds_refused.1] at hgiven
  simp at hgiven

end RefusedOnce
end DocScribe
