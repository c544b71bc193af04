/-
Runs in which nothing is written.

A run that writes and one that does not, started in the same world, ask for the
same and come to the same, as long as no two of the paths lead to the same file
and no write is refused (`Documenter.dryRun_agrees`). The worlds they pass
through are alike but for the files (`World.Shadows`): within a file the text in
progress is kept in the draft, and the files still to come are the same in both
trees.
-/
import DocScribe.Proofs.Cancelling
import DocScribe.Proofs.SideBySide

namespace DocScribe

/-- Whether something was asked of the user or told to the user. -/
def Deed.isRequest : Deed → Bool
  | .asked .. | .announced _ => true
  | .wrote .. => false

/-- The announcements, and the questions with their answers. -/
def requests (deeds : List Deed) : List Deed := deeds.filter Deed.isRequest

theorem requests_append (a b : List Deed) : requests (a ++ b) = requests a ++ requests b := List.filter_append ..

/-- Worlds that are alike to the user. -/
structure World.Shadows {σ : Type} (v w : World σ) : Prop where
  prompt : v.prompt = w.prompt
  announced : v.announced = w.announced
  requests : requests v.deeds = requests w.deeds

/-- More than so many writes were refused. -/
def World.Exceeds {σ : Type} (n : Nat) (w : World σ) : Prop := n < (refusals w.deeds).length

theorem World.Exceeds.mono {σ : Type} {n : Nat} {w w' : World σ} (h : w.Exceeds n) (hdeeds : w.deeds <+: w'.deeds) :
    w'.Exceeds n := by
  obtain ⟨more, hmore⟩ := hdeeds
  unfold Exceeds at h ⊢
  rw [← hmore, refusals_append, List.length_append]
  omega

namespace Documenter

variable {σ : Type} {d : Documenter σ} {file : Path} {v w : World σ}

/-! ## A file -/

/-- Two worlds in the work on a file; only in the first one the file was
written. -/
structure Shadowed (n : Nat) (file : Path) (began : FileTree) (v w : World σ) : Prop extends v.Shadows w where
  edits : ∃ news, began.Edits file news v.tree
  refused : n ≤ (refusals v.deeds).length

variable {n : Nat} {began : FileTree}

theorem unheard_shadowed : Work.Unheard (Shadowed n file began) (World.Exceeds (σ := σ) n) where
  alike _ _ _ h := ⟨⟨h.prompt, h.announced, h.requests⟩, h.edits, h.refused⟩
  off _ _ h := h

namespace Shadowed

theorem ask (p : Prompter σ) (q : Question) :
    Work.Alike (Shadowed n file began) (World.Exceeds n) (Work.ask p q) (Work.ask p q) := by
  intro v w h
  have hanswer : p.answer q v.prompt = p.answer q w.prompt := by rw [h.prompt]
  have hfst : (p.answer q v.prompt).1 = (p.answer q w.prompt).1 := congrArg Prod.fst hanswer
  have hsnd : (p.answer q v.prompt).2 = (p.answer q w.prompt).2 := congrArg Prod.snd hanswer
  refine .inr ⟨hfst, ⟨hsnd, h.announced, ?_⟩, h.edits, ?_⟩
  · show requests (v.deeds ++ [.asked q (p.answer q v.prompt).1]) =
      requests (w.deeds ++ [.asked q (p.answer q w.prompt).1])
    rw [requests_append, requests_append, h.requests, hfst]
  · show n ≤ (refusals (v.deeds ++ [.asked q (p.answer q v.prompt).1])).length
    rw [refusals_append]
    exact Nat.le_trans h.refused (by simp)

theorem announce (p : Prompter σ) (f : Path) :
    Work.Alike (Shadowed n file began) (World.Exceeds n) (Work.announce p f) (Work.announce p f) := by
  intro v w h
  right
  by_cases hknown : w.Knows f
  · have hknown' : v.Knows f := by rwa [World.Knows, h.announced]
    have hv : Work.runIn v (Work.announce p f) = (.ok false, v) := if_pos hknown'
    have hw : Work.runIn w (Work.announce p f) = (.ok false, w) := if_pos hknown
    rw [hv, hw]
    exact ⟨rfl, h⟩
  · have hnew : ¬v.Knows f := by rwa [World.Knows, h.announced]
    have hv : Work.runIn v (Work.announce p f) = (.ok true, { v with
        prompt := p.announce f v.prompt, announced := f :: v.announced, deeds := v.deeds ++ [.announced f] }) :=
      if_neg hnew
    have hw : Work.runIn w (Work.announce p f) = (.ok true, { w with
        prompt := p.announce f w.prompt, announced := f :: w.announced, deeds := w.deeds ++ [.announced f] }) :=
      if_neg hknown
    rw [hv, hw]
    refine ⟨rfl, ⟨?_, ?_, ?_⟩, h.edits, ?_⟩
    · rw [h.prompt]
    · rw [h.announced]
    · rw [requests_append, requests_append, h.requests]
    · rw [refusals_append]
      exact Nat.le_trans h.refused (by simp)

/-- Documenters of which only the first writes work alike on a file that can be
read, until a write is refused. -/
theorem companions {text : Text} (hread : began.read file = .ok text) :
    Companions (Shadowed n file began) (World.Exceeds n) file { d with dryRun := false }
      { d with dryRun := true } where
  review := rfl
  unheard := unheard_shadowed
  ask := ask d.prompter
  admits := unheard_shadowed.stepwise.admits (announce d.prompter file) (ask d.prompter (.confirm file))
  save new := by
    intro v w h
    have hw : Work.runIn w ({ d with dryRun := true }.save file new) = (.ok (), w) := rfl
    obtain ⟨news, hedits⟩ := h.edits
    cases hwrite : v.tree.write file new with
    | error fault =>
      have hv : Work.runIn v ({ d with dryRun := false }.save file new) = _ := Work.runIn_write_error hwrite
      rw [hv]
      refine .inl ⟨_, _, rfl, ?_⟩
      have hone : refusals [.wrote file new (.error fault)] = [(file, new)] := rfl
      have hbefore := h.refused
      unfold World.Exceeds
      rw [refusals_append, hone, List.length_append, List.length_singleton]
      omega
    | ok tree =>
      have hv : Work.runIn v ({ d with dryRun := false }.save file new) = _ := Work.runIn_write hwrite
      rw [hv, hw]
      refine .inr ⟨rfl, ⟨h.prompt, h.announced, ?_⟩, ⟨news ++ [new], hedits.snoc hread hwrite⟩, ?_⟩
      · rw [requests_append, h.requests]
        exact List.append_nil _
      · rw [refusals_append]
        exact Nat.le_trans h.refused (by simp)

end Shadowed

/-! ## A run -/

theorem outcomeOf_still (hdry : d.dryRun = true) (changes : Option ChangeSet) (file : Path) (w : World σ) :
    (Work.runIn w (d.outcomeOf changes file)).2.tree = w.tree := by
  obtain ⟨news, hedits, hnone⟩ := d.outcomeOf_edits changes file w
  rw [hnone hdry] at hedits
  exact hedits.eq_of_nil

/-- A dry run leaves the tree as it is. -/
theorem outcomes_still (hdry : d.dryRun = true) (changes : Option ChangeSet) (files : List Path) (w : World σ) :
    (Work.runIn w (d.outcomes changes files)).2.tree = w.tree := by
  induction files generalizing w with
  | nil => rfl
  | cons file files ih =>
    have hstill := outcomeOf_still hdry changes file w
    rcases hrun : Work.runIn w (d.outcomeOf changes file) with ⟨e | outcome, w₁⟩ <;> rw [hrun] at hstill
    · rwa [outcomes_of_error hrun]
    · rw [outcomes_of_ok hrun]
      exact (ih w₁).trans hstill

/-- A run adds to what was done. -/
theorem outcomes_deeds (d : Documenter σ) (changes : Option ChangeSet) (files : List Path) (w : World σ) :
    w.deeds <+: (Work.runIn w (d.outcomes changes files)).2.deeds := by
  induction files generalizing w with
  | nil => exact List.prefix_refl _
  | cons file files ih =>
    have hvisit := (d.visit_outcomeOf changes file w).deeds_grow
    rcases hrun : Work.runIn w (d.outcomeOf changes file) with ⟨e | outcome, w₁⟩ <;> rw [hrun] at hvisit
    · rwa [outcomes_of_error hrun]
    · rw [outcomes_of_ok hrun]
      exact hvisit.trans (ih w₁)

/-- One file of a run: both come to the same and only one of them has written to
this file, or a write was refused. -/
theorem outcomeOf_shadowed (hvw : v.Shadows w) (hfile : v.tree.resolve file = w.tree.resolve file)
    (hrefused : n ≤ (refusals v.deeds).length) (changes : Option ChangeSet) :
    (Work.runIn v ({ d with dryRun := false }.outcomeOf changes file)).2.Exceeds n ∨
      ((Work.runIn v ({ d with dryRun := false }.outcomeOf changes file)).1 =
          (Work.runIn w ({ d with dryRun := true }.outcomeOf changes file)).1 ∧
        Shadowed n file v.tree (Work.runIn v ({ d with dryRun := false }.outcomeOf changes file)).2
          (Work.runIn w ({ d with dryRun := true }.outcomeOf changes file)).2) := by
  have hread : v.tree.read file = w.tree.read file := by rw [FileTree.read, FileTree.content, hfile]; rfl
  exact alike_outcomeOf (d := { d with dryRun := false }) (e := { d with dryRun := true }) rfl unheard_shadowed
    ⟨hvw, ⟨[], .refl v.tree file⟩, hrefused⟩ hread (fun _ htext => Shadowed.companions htext) changes

/-- **One file after the other.** -/
theorem outcomes_shadowed {files : List Path} (hseparate : w.tree.Separate files) (hvw : v.Shadows w)
    (hfiles : ∀ q ∈ files, v.tree.resolve q = w.tree.resolve q) (hrefused : n ≤ (refusals v.deeds).length)
    (changes : Option ChangeSet) :
    (Work.runIn v ({ d with dryRun := false }.outcomes changes files)).2.Exceeds n ∨
      ((Work.runIn v ({ d with dryRun := false }.outcomes changes files)).1 =
          (Work.runIn w ({ d with dryRun := true }.outcomes changes files)).1 ∧
        (Work.runIn v ({ d with dryRun := false }.outcomes changes files)).2.Shadows
          (Work.runIn w ({ d with dryRun := true }.outcomes changes files)).2) := by
  induction files generalizing v w with
  | nil => exact .inr ⟨rfl, hvw⟩
  | cons file files ih =>
    obtain ⟨hfile, hfiles⟩ := List.forall_mem_cons.1 hfiles
    have hstill := outcomeOf_still (d := { d with dryRun := true }) rfl changes file w
    have hone := outcomeOf_shadowed (d := d) hvw hfile hrefused changes
    rcases hv : Work.runIn v ({ d with dryRun := false }.outcomeOf changes file) with ⟨e | outcome, v₁⟩ <;>
      rcases hw : Work.runIn w ({ d with dryRun := true }.outcomeOf changes file) with ⟨e' | outcome', w₁⟩ <;>
      rw [hv, hw] at hone <;> rw [hw] at hstill
    case error.error =>
      rw [outcomes_of_error hv, outcomes_of_error hw]
      rcases hone with hexceeds | ⟨hended, hafter⟩
      · exact .inl hexceeds
      · cases hended
        exact .inr ⟨rfl, hafter.toShadows⟩
    case error.ok =>
      rw [outcomes_of_error hv]
      exact .inl (hone.resolve_right fun h => nomatch h.1)
    case ok.error =>
      rw [outcomes_of_ok hv]
      exact .inl ((hone.resolve_right fun h => nomatch h.1).mono (outcomes_deeds _ changes files v₁))
    case ok.ok =>
      rw [outcomes_of_ok hv, outcomes_of_ok hw]
      rcases hone with hexceeds | ⟨hended, hafter⟩
      · exact .inl (hexceeds.mono (outcomes_deeds _ changes files v₁))
      cases hended
      obtain ⟨news, hedits⟩ := hafter.edits
      have hlater : ∀ q ∈ files, v₁.tree.resolve q = w₁.tree.resolve q := by
        intro q hq
        have hapart : v.tree.Apart file q := (hseparate.apart q hq).congr hfile (hfiles q hq)
        rw [hedits.elsewhere hapart, hstill, hfiles q hq]
      have hrest := ih (by rw [hstill]; exact hseparate.tail) hafter.toShadows hlater hafter.refused
      exact hrest.imp_right fun ⟨hresult, hshadows⟩ => ⟨congrArg (Except.map _) hresult, hshadows⟩

/-- **A run that writes nothing asks for the same and comes to the same as one
that writes**, when no two of the paths lead to the same file and no write was
refused. It leaves every file as it is, whatever becomes of the other one. -/
theorem dryRun_agrees (d : Documenter σ) (w : World σ) {files : List Path} (hseparate : w.tree.Separate files)
    (changes : Option ChangeSet) :
    ∃ result v' dry w', Work.runIn w ({ d with dryRun := false }.documentFiles files changes) = (result, v') ∧
      Work.runIn w ({ d with dryRun := true }.documentFiles files changes) = (dry, w') ∧ w'.tree = w.tree ∧
      (refusals v'.deeds = refusals w.deeds →
        dry = result ∧ requests w'.deeds = requests v'.deeds ∧ w'.prompt = v'.prompt) := by
  have hstill := outcomes_still (d := { d with dryRun := true }) rfl changes files w
  have hruns := outcomes_shadowed (d := d) hseparate ⟨rfl, rfl, rfl⟩ (fun _ _ => rfl) (Nat.le_refl _) changes
  unfold documentFiles
  rw [← map_eq_pure_bind, ← map_eq_pure_bind, Work.runIn_map, Work.runIn_map]
  refine ⟨_, _, _, _, rfl, rfl, hstill, fun hnone => ?_⟩
  obtain ⟨hresult, hshadows⟩ := hruns.resolve_left fun hexceeds => by
    rw [World.Exceeds, hnone] at hexceeds
    exact Nat.lt_irrefl _ hexceeds
  exact ⟨congrArg _ hresult.symm, hshadows.requests.symm, hshadows.prompt.symm⟩

end Documenter

/-! ## Two files, one given up -/

namespace GivenUp

set_option maxRecDepth 100000 in
theorem written_later : (run later).2.tree.read upper ≠ (world later).tree.read upper ∧
    refusals (run later).2.deeds = [] := by decide +kernel

/-- The run that writes leaves another file behind, and both are cancelled after
the same questions. -/
theorem dryRun_agrees_later :
    (world later).tree.Separate [upper, lower] ∧ ∃ v' w',
      Work.runIn (world later) ({ documenter with dryRun := false }.documentFiles [upper, lower] none) =
          (.error .cancelled, v') ∧
        Work.runIn (world later) ({ documenter with dryRun := true }.documentFiles [upper, lower] none) =
          (.error .cancelled, w') ∧
        refusals v'.deeds = [] ∧ requests w'.deeds = requests v'.deeds ∧
        v'.tree.read upper ≠ w'.tree.read upper := by
  have hseparate : (world later).tree.Separate [upper, lower] := by decide
  obtain ⟨result, v', dry, w', hreal, hdry, hstill, hagrees⟩ :=
    Documenter.dryRun_agrees documenter (world later) hseparate none
  have hrun : run later = (result, v') := hreal
  obtain ⟨hwritten, hnone⟩ := written_later
  have hcancelled := eq_of_failure? ended_later.1
  rw [hrun] at hcancelled hwritten hnone
  obtain ⟨rfl, -⟩ := Prod.mk.inj hcancelled
  obtain ⟨rfl, hrequests, -⟩ := hagrees hnone
  refine ⟨hseparate, v', w', hreal, hdry, hnone, hrequests, ?_⟩
  rwa [← hstill] at hwritten

end GivenUp
end DocScribe
