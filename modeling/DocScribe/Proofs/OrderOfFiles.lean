/-
The order in which files are documented.

With placeholders for answers, what comes of a file depends on the text that it
holds and on the writes to it that are refused, and on nothing that was done
before (`Documenter.outcomeOf_matched`). So neighbours in a list of separate
files can change places, and every order of them leaves the same files and comes
to the same for each (`Documenter.documentFiles_perm`).
-/
import DocScribe.Proofs.Cancelling
import DocScribe.Proofs.Placeholders
import DocScribe.Proofs.SideBySide

namespace DocScribe
namespace Documenter

variable {d : Documenter Unit} {file : Path} {changes : Option ChangeSet}

/-! ## A file -/

/-- Two worlds in the work on a file, to which the same texts were written. -/
def Matched (file : Path) (t u : FileTree) (v w : World Unit) : Prop :=
  ∃ news, t.Edits file news v.tree ∧ u.Edits file news w.tree

theorem unheard_matched {t u : FileTree} : Work.Unheard (Matched file t u) fun _ => False :=
  ⟨fun _ _ _ h => h, fun _ _ h => h⟩

theorem Matched.companions (hd : d.Unasked) {t u : FileTree} {text : Text} (hread : t.read file = .ok text)
    (hconcur : FileTree.Concur file t u) : Companions (Matched file t u) (fun _ => False) file d d where
  review := rfl
  unheard := unheard_matched
  ask _ _ _ h := .inr ⟨rfl, h⟩
  admits v w h := by
    obtain ⟨v', hv, htree⟩ := gives_admits hd file v
    obtain ⟨w', hw, htree'⟩ := gives_admits hd file w
    rw [hv, hw]
    refine .inr ⟨rfl, ?_⟩
    unfold Matched
    rwa [htree, htree']
  save new := by
    refine unheard_matched.stepwise.save (e := d) rfl fun _ v w h => ?_
    obtain ⟨news, hedits, hedits'⟩ := h
    have hread' : u.read file = .ok text := hconcur.read.symm.trans hread
    -- both writes are refused, or neither is
    have hfault (fault : AccessFault) : v.tree.write file new = .error fault ↔ w.tree.write file new = .error fault := by
      rw [hedits.write_eq_error_iff hread, hconcur.write_eq_error_iff hread, hedits'.write_eq_error_iff hread']
    cases hv : v.tree.write file new with
    | error fault =>
      rw [Work.runIn_write_error hv, Work.runIn_write_error ((hfault fault).1 hv)]
      exact .inr ⟨rfl, news, hedits, hedits'⟩
    | ok tree =>
      cases hw : w.tree.write file new with
      | error fault => exact absurd (hv.symm.trans ((hfault fault).2 hw)) (by simp)
      | ok tree' =>
        rw [Work.runIn_write hv, Work.runIn_write hw]
        exact .inr ⟨rfl, news ++ [new], hedits.snoc hread hv, hedits'.snoc hread' hw⟩

/-- The placeholder prompter never cancels. -/
theorem outcomeOf_unasked (hd : d.Unasked) (changes : Option ChangeSet) (file : Path) (w : World Unit) :
    ∃ outcome w', Work.runIn w (d.outcomeOf changes file) = (.ok outcome, w') := by
  rcases hrun : Work.runIn w (d.outcomeOf changes file) with ⟨e | outcome, w'⟩
  · obtain ⟨-, began, -, hcancelled⟩ := outcomeOf_cancelled hrun
    obtain ⟨q, s, before, -, hanswer, -⟩ := d.yields_documentFile file _ began w' hcancelled
    rw [hd.placeholder] at hanswer
    cases q <;> cases hanswer
  · exact ⟨outcome, w', rfl⟩

/-- **What comes of a file depends on the text that it holds**, and on which
writes to it are refused. -/
theorem outcomeOf_matched (hd : d.Unasked) (changes : Option ChangeSet) {v w : World Unit}
    (hconcur : FileTree.Concur file v.tree w.tree) :
    ∃ outcome news v' w', Work.runIn v (d.outcomeOf changes file) = (.ok outcome, v') ∧
      Work.runIn w (d.outcomeOf changes file) = (.ok outcome, w') ∧
      v.tree.Edits file news v'.tree ∧ w.tree.Edits file news w'.tree := by
  obtain ⟨outcome, v', hv⟩ := outcomeOf_unasked hd changes file v
  obtain ⟨outcome', w', hw⟩ := outcomeOf_unasked hd changes file w
  have hstart : Matched file v.tree w.tree v w := ⟨[], .refl v.tree file, .refl w.tree file⟩
  have halike := alike_outcomeOf rfl unheard_matched hstart hconcur.read
    (fun text hread => Matched.companions hd hread hconcur) changes
  rw [hv, hw] at halike
  obtain ⟨hsame, news, hedits, hedits'⟩ := halike.resolve_left id
  cases hsame
  exact ⟨outcome, news, v', w', hv, hw, hedits, hedits'⟩

/-! ## A run -/

theorem outcomes_cons {σ : Type} {d : Documenter σ} {file : Path} {files : List Path} {outcome : Outcome}
    {os : List (Path × Outcome)} {w w₁ w' : World σ}
    (hfile : Work.runIn w (d.outcomeOf changes file) = (.ok outcome, w₁))
    (hfiles : Work.runIn w₁ (d.outcomes changes files) = (.ok os, w')) :
    Work.runIn w (d.outcomes changes (file :: files)) = (.ok ((file, outcome) :: os), w') :=
  Work.runIn_bind_ok.2 ⟨outcome, w₁, hfile, Work.runIn_bind_ok.2 ⟨os, w', hfiles, rfl⟩⟩

/-- A run depends on nothing but the files. -/
theorem outcomes_congr (hd : d.Unasked) (changes : Option ChangeSet) (files : List Path) {v w : World Unit}
    (htree : v.tree = w.tree) :
    ∃ os v' w', Work.runIn v (d.outcomes changes files) = (.ok os, v') ∧
      Work.runIn w (d.outcomes changes files) = (.ok os, w') ∧ v'.tree = w'.tree := by
  induction files generalizing v w with
  | nil => exact ⟨[], v, w, rfl, rfl, htree⟩
  | cons file files ih =>
    have hconcur : FileTree.Concur file v.tree w.tree := htree ▸ .refl file v.tree
    obtain ⟨outcome, news, v₁, w₁, hv, hw, hedits, hedits'⟩ := outcomeOf_matched hd changes hconcur
    rw [← htree] at hedits'
    obtain ⟨os, v', w', hvs, hws, htree'⟩ := ih (hedits.unique hedits')
    exact ⟨(file, outcome) :: os, v', w', outcomes_cons hv hvs, outcomes_cons hw hws, htree'⟩

/-- Neighbours in a list of files can change places. -/
theorem outcomes_swap (hd : d.Unasked) (changes : Option ChangeSet) {p q : Path} {v w : World Unit}
    (htree : v.tree = w.tree) (hapart : v.tree.Apart p q) :
    ∃ o o' v₁ v₂ w₁ w₂, Work.runIn v (d.outcomeOf changes p) = (.ok o, v₁) ∧
      Work.runIn v₁ (d.outcomeOf changes q) = (.ok o', v₂) ∧ Work.runIn w (d.outcomeOf changes q) = (.ok o', w₁) ∧
      Work.runIn w₁ (d.outcomeOf changes p) = (.ok o, w₂) ∧ v₂.tree = w₂.tree := by
  obtain ⟨o, first, v₁, -, hp, -, hfirst, -⟩ := outcomeOf_matched hd changes (.refl p v.tree)
  -- the second file is the same before and after the work on the first
  have hq : FileTree.Concur q v₁.tree w.tree := htree ▸ hfirst.concur hapart
  obtain ⟨o', second, v₂, w₁, hvq, hwq, hsecond, hsecond'⟩ := outcomeOf_matched hd changes hq
  rw [← htree] at hsecond'
  obtain ⟨o'', third, w₂, v₁', hwp, hvp, hthird', hthird⟩ :=
    outcomeOf_matched hd changes (hsecond'.concur hapart.symm)
  rw [hp] at hvp
  cases hvp
  exact ⟨o, o', v₁, v₂, w₁, w₂, hp, hvq, hwq, hwp, hthird.comm hapart hsecond hsecond' hthird'⟩

/-- **Every order of separate files comes to the same for each of them**, and
leaves the same files. -/
theorem outcomes_perm (hd : d.Unasked) (changes : Option ChangeSet) {files files' : List Path}
    (hperm : files.Perm files') {v w : World Unit} (htree : v.tree = w.tree) (hseparate : v.tree.Separate files) :
    ∃ os os' v' w', Work.runIn v (d.outcomes changes files) = (.ok os, v') ∧
      Work.runIn w (d.outcomes changes files') = (.ok os', w') ∧ os.Perm os' ∧ v'.tree = w'.tree := by
  induction hperm generalizing v w with
  | nil => exact ⟨[], [], v, w, rfl, rfl, .refl _, htree⟩
  | @cons file files files' _ ih =>
    have hconcur : FileTree.Concur file v.tree w.tree := htree ▸ .refl file v.tree
    obtain ⟨outcome, news, v₁, w₁, hv, hw, hedits, hedits'⟩ := outcomeOf_matched hd changes hconcur
    rw [← htree] at hedits'
    obtain ⟨os, os', v', w', hvs, hws, hos, htree'⟩ :=
      ih (hedits.unique hedits') (hedits.separate hseparate.tail)
    exact ⟨_, _, v', w', outcomes_cons hv hvs, outcomes_cons hw hws, hos.cons _, htree'⟩
  | swap p q files =>
    obtain ⟨o, o', v₁, v₂, w₁, w₂, hvq, hvp, hwp, hwq, htree'⟩ :=
      outcomes_swap hd changes htree (hseparate.apart p List.mem_cons_self)
    obtain ⟨os, v', w', hvs, hws, hlast⟩ := outcomes_congr hd changes files htree'
    exact ⟨_, _, v', w', outcomes_cons hvq (outcomes_cons hvp hvs), outcomes_cons hwp (outcomes_cons hwq hws),
      .swap _ _ os, hlast⟩
  | @trans files between files' h₁ _ ih₁ ih₂ =>
    obtain ⟨os, mid, v', u', hvs, hus, hos, htree₁⟩ := ih₁ htree hseparate
    have hseparate' : w.tree.Separate between := by
      rw [← htree]
      exact hseparate.perm h₁
    obtain ⟨mid', os', u'', w', hus', hws, hos', htree₂⟩ := ih₂ rfl hseparate'
    rw [hus] at hus'
    cases hus'
    exact ⟨os, os', v', w', hvs, hws, hos.trans hos', htree₁.trans htree₂⟩

/-- A run reports on its files in their order. -/
theorem outcomes_paths {σ : Type} {d : Documenter σ} {files : List Path} {w w' : World σ}
    {os : List (Path × Outcome)} (h : Work.runIn w (d.outcomes changes files) = (.ok os, w')) :
    os.map (·.1) = files := by
  induction files generalizing w os with
  | nil =>
    cases h
    rfl
  | cons file files ih =>
    obtain ⟨outcome, w₁, -, h⟩ := Work.runIn_bind_ok.1 h
    obtain ⟨others, w₂, hrest, h⟩ := Work.runIn_bind_ok.1 h
    cases h
    rw [List.map_cons, ih hrest]

/-- A run leaves every other file as it is. -/
theorem outcomes_elsewhere {σ : Type} {d : Documenter σ} {files : List Path} {w w' : World σ}
    {os : List (Path × Outcome)} (h : Work.runIn w (d.outcomes changes files) = (.ok os, w')) {q : Path}
    (hq : ∀ p ∈ files, w.tree.Apart p q) : w'.tree.resolve q = w.tree.resolve q := by
  induction files generalizing w os with
  | nil =>
    cases h
    rfl
  | cons file files ih =>
    obtain ⟨hfile, hq⟩ := List.forall_mem_cons.1 hq
    obtain ⟨outcome, w₁, hrun, h⟩ := Work.runIn_bind_ok.1 h
    obtain ⟨others, w₂, hrest, h⟩ := Work.runIn_bind_ok.1 h
    cases h
    obtain ⟨news, hedits, -⟩ := d.outcomeOf_edits changes file w
    rw [hrun] at hedits
    rw [ih hrest fun p hp => hedits.apart_iff.2 (hq p hp), hedits.elsewhere hfile]

/-- **Separate files are independent of one another.** Whatever the order in
which they are documented with placeholders, the same files are left and each
comes to the same; every other file is as it was. -/
theorem documentFiles_perm (hd : d.Unasked) (w : World Unit) {files files' : List Path} (hperm : files.Perm files')
    (hseparate : w.tree.Separate files) (changes : Option ChangeSet) :
    ∃ r r' w₁ w₂, Work.runIn w (d.documentFiles files changes) = (.ok r, w₁) ∧
      Work.runIn w (d.documentFiles files' changes) = (.ok r', w₂) ∧ w₁.tree = w₂.tree ∧
      r.outcomes.map (·.1) = files ∧ r.outcomes.Perm r'.outcomes ∧
      r.files.Perm r'.files ∧ r.failures.Perm r'.failures ∧ r.skipped.Perm r'.skipped ∧
      ∀ q, (∀ p ∈ files, w.tree.Apart p q) → w₁.tree.resolve q = w.tree.resolve q := by
  obtain ⟨os, os', w₁, w₂, hrun, hrun', hos, htree⟩ := outcomes_perm hd changes hperm rfl hseparate
  exact ⟨⟨os⟩, ⟨os'⟩, w₁, w₂, Work.runIn_bind_ok.2 ⟨os, w₁, hrun, rfl⟩, Work.runIn_bind_ok.2 ⟨os', w₂, hrun', rfl⟩, htree,
    outcomes_paths hrun, hos, hos.filterMap _, hos.filterMap _, hos.filterMap _,
    fun q hq => outcomes_elsewhere hrun hq⟩

end Documenter

namespace ThreeFiles

def first : Path := ⟨"a.py"⟩

def spoilt : Path := ⟨"b.py"⟩

def last : Path := ⟨"c.py"⟩

def documenter : Documenter Unit := { catalog := .ofFormats [.python], prompter := .placeholder }

/-- A file that cannot be read stands between two that can. -/
def world : World Unit :=
  { tree := { nodes := [(["a.py"], .file (.text "def f():\n    pass\n")), (["b.py"], .file (.bytes [0xff])),
      (["c.py"], .file (.text "class C:\n    pass\n"))] }, prompt := () }

theorem documentFiles_perm_rotated :
    documenter.Unasked ∧ [first, spoilt, last].Perm [spoilt, last, first] ∧
      world.tree.Separate [first, spoilt, last] ∧
      ∃ r r' w₁ w₂, Work.runIn world (documenter.documentFiles [first, spoilt, last] none) = (.ok r, w₁) ∧
        Work.runIn world (documenter.documentFiles [spoilt, last, first] none) = (.ok r', w₂) ∧
        w₁.tree = w₂.tree ∧ r.outcomes.map (·.1) = [first, spoilt, last] ∧ r.outcomes.Perm r'.outcomes := by
  have hd : documenter.Unasked := ⟨rfl, rfl⟩
  have hperm : [first, spoilt, last].Perm [spoilt, last, first] := by decide
  have hseparate : world.tree.Separate [first, spoilt, last] := by decide
  obtain ⟨r, r', w₁, w₂, hrun, hrun', htree, hpaths, houtcomes, -⟩ :=
    Documenter.documentFiles_perm hd world hperm hseparate none
  exact ⟨hd, hperm, hseparate, r, r', w₁, w₂, hrun, hrun', htree, hpaths, houtcomes⟩

end ThreeFiles
end DocScribe
