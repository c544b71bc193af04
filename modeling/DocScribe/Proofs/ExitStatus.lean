/-
How commands end.

`Command.Unfit` says when a command cannot be carried out: its settings cannot
be read, a kind of construct of one of its formats has no grammar, discovery
fails, or the change set cannot be read. Such a command ends before anything is
written, and no other command ends as fatal
(`Command.fatal_iff_refused`). A command that documents ends with failures
exactly when the work on one of its files fails; a listing tells about the files
it cannot scan and ends with success all the same (`Command.status_of_ready`).
-/
import DocScribe.Command.Run
import DocScribe.Proofs.Mishaps

namespace DocScribe

theorem Catalog.failures_eq_nil {formats : List Format} :
    (Catalog.ofFormats formats).failures = [] ↔
      ∀ f ∈ formats, ∀ kind ∈ f.kinds, ∃ k, f.kindPlan kind = .ok k := by
  simp only [ofFormats, Format.failures, List.flatMap_eq_nil_iff, List.filterMap_eq_nil_iff]
  refine forall₄_congr fun f _ kind _ => ?_
  cases f.kindPlan kind <;> simp

namespace Command

variable {terminal : Terminal} {color : Bool} {t : FileTree} {arguments : List Text} {root : Path} {task : Task}
  {settings : Settings} {catalog : Catalog} {files : List Path} {changes : Option ChangeSet}

/-! ## Settings -/

/-- The settings of a project, which hold up: they were read, and every kind of
construct of every format has a plan. -/
structure HoldUp (t : FileTree) (root : Path) (settings : Settings) : Prop where
  loaded : ∃ loaded, Settings.load t root = .ok loaded ∧ loaded.getD {} = settings
  planned : ∀ f ∈ settings.allFormats, ∀ kind ∈ f.kinds, ∃ k, f.kindPlan kind = .ok k

/-- Settings that do not hold up. -/
def Broken (t : FileTree) (root : Path) : Prop :=
  (∃ e, Settings.load t root = .error e) ∨
    ∃ loaded, Settings.load t root = .ok loaded ∧
      ∃ f ∈ (loaded.getD {}).allFormats, ∃ kind ∈ f.kinds, ∃ e, f.kindPlan kind = .error e

theorem HoldUp.withCatalog_eq (h : HoldUp t root settings) (go : Settings → Catalog → Finished) :
    withCatalog t root go = go settings (.ofFormats settings.allFormats) := by
  obtain ⟨loaded, hload, rfl⟩ := h.loaded
  unfold withCatalog
  rw [hload]
  dsimp only
  rw [if_pos (List.isEmpty_iff.2 (Catalog.failures_eq_nil.2 h.planned))]

/-- The settings of a project hold up, or they are broken. -/
theorem holdUp_or_broken (t : FileTree) (root : Path) : (∃ settings, HoldUp t root settings) ∨ Broken t root := by
  cases hload : Settings.load t root with
  | error e => exact .inr (.inl ⟨e, hload⟩)
  | ok loaded =>
    by_cases hplanned : ∀ f ∈ (loaded.getD {}).allFormats, ∀ kind ∈ f.kinds, ∃ k, f.kindPlan kind = .ok k
    · exact .inl ⟨_, ⟨loaded, hload, rfl⟩, hplanned⟩
    · simp only [not_forall] at hplanned
      obtain ⟨f, hf, kind, hkind, hplan⟩ := hplanned
      refine .inr (.inr ⟨loaded, hload, f, hf, kind, hkind, ?_⟩)
      cases hplan' : f.kindPlan kind with
      | error e => exact ⟨e, rfl⟩
      | ok k => exact absurd ⟨k, hplan'⟩ hplan

/-- A command whose settings are broken does nothing. -/
theorem Broken.withCatalog_ends (h : Broken t root) (go : Settings → Catalog → Finished) :
    (withCatalog t root go).status = .fatal ∧ (withCatalog t root go).tree = t := by
  unfold withCatalog
  rcases h with ⟨e, he⟩ | ⟨loaded, hload, f, hf, kind, hkind, e, he⟩
  · rw [he]
    exact ⟨rfl, rfl⟩
  · rw [hload]
    dsimp only
    rw [if_neg]
    · exact ⟨rfl, rfl⟩
    · rw [List.isEmpty_iff, Catalog.failures_eq_nil]
      intro hplanned
      obtain ⟨k, hk⟩ := hplanned f hf kind hkind
      rw [hk] at he
      cases he

/-! ## Commands that cannot be carried out -/

/-- A command line that asks for a task in the directory of a project. -/
def Asks (t : FileTree) (arguments : List Text) (root : Path) (task : Task) : Prop :=
  ∃ invocation, parse arguments = .ok invocation ∧ invocation.task = some task ∧
    invocation.path.getD (currentDirectory t) = root

/-- Why a task cannot be carried out. -/
inductive Unfit (t : FileTree) (root : Path) : Task → Prop
  | settings {task : Task} (htask : task ≠ .init) (h : Broken t root) : Unfit t root task
  /-- The files of the project cannot be collected. -/
  | discovery {task : Task} {settings : Settings} {e : Failure}
      (htask : (∃ placeholders yes dryRun, task = .start [] placeholders yes dryRun) ∨ ∃ format, task = .list [] format)
      (hsettings : HoldUp t root settings)
      (h : (Discovery.collect t root settings (Catalog.ofFormats settings.allFormats).supports).1 = .error e) :
      Unfit t root task
  /-- The change set cannot be read. -/
  | changes {patches : Path} {placeholders yes dryRun : Bool} {settings : Settings} {e : Failure}
      (hsettings : HoldUp t root settings) (h : loadChanges t (root.join patches) = .error e) :
      Unfit t root (.diff patches placeholders yes dryRun)
  /-- The settings file cannot be made. -/
  | sample {fault : AccessFault} (hnone : Settings.locate? t root = none)
      (h : t.write (root.join ⟨"dyc.toml"⟩) sampleSettings = .error fault) : Unfit t root .init

/-- A command line that is not understood, or asks for what cannot be carried
out. -/
def Refused (t : FileTree) (arguments : List Text) : Prop :=
  (∃ f, parse arguments = .error (.fault f)) ∨ ∃ root task, Asks t arguments root task ∧ Unfit t root task

theorem Asks.runOn_eq (h : Asks t arguments root task) (terminal : Terminal) (terminalColor : Bool) :
    ∃ color, runOn terminal terminalColor t arguments = runTask terminal color t root task := by
  obtain ⟨invocation, hparse, htask, rfl⟩ := h
  refine ⟨terminalColor && !invocation.noColor, ?_⟩
  unfold runOn
  rw [hparse]
  dsimp only
  rw [htask]

/-- Documenting never ends a command as fatal. -/
theorem runDocument_status_ne_fatal (placeholders yes dryRun : Bool) :
    (runDocument terminal color t root catalog files changes placeholders yes dryRun).status ≠ .fatal := by
  unfold runDocument documentWith
  split
  · simp
  · generalize hrun : ((documenterFor terminal root catalog placeholders yes dryRun).documentFiles files
      changes).run.run { tree := t, prompt := (terminal.orPlaceholders placeholders).start } = out
    obtain ⟨e | report, w⟩ := out
    · obtain rfl := Documenter.documentFiles_error hrun
      simp
    · dsimp only
      split <;> simp

/-- What selecting files by discovery comes to. -/
theorem selectFiles_nil (t : FileTree) (root : Path) (settings : Settings) (catalog : Catalog) :
    selectFiles t root [] settings catalog = Discovery.collect t root settings catalog.supports := rfl

/-- Files that are named are always found. -/
theorem named_eq_nil_of_selectFiles {named : List Path} {e : Failure}
    (h : (selectFiles t root named settings catalog).1 = .error e) : named = [] := by
  cases named with
  | nil => rfl
  | cons file named => cases h

theorem Unfit.runTask_ends (h : Unfit t root task) (terminal : Terminal) (color : Bool) :
    (runTask terminal color t root task).status = .fatal ∧ (runTask terminal color t root task).tree = t := by
  cases h with
  | settings htask hbroken =>
    cases task with
    | init => exact absurd rfl htask
    | start named placeholders yes dryRun => exact hbroken.withCatalog_ends _
    | diff patches placeholders yes dryRun => exact hbroken.withCatalog_ends _
    | list named format => exact hbroken.withCatalog_ends _
  | discovery htask hsettings hcollect =>
    rcases htask with ⟨placeholders, yes, dryRun, rfl⟩ | ⟨format, rfl⟩
    · simp only [runTask, runStart, hsettings.withCatalog_eq, selectFiles_nil, hcollect]
      exact ⟨rfl, rfl⟩
    · simp only [runTask, runList, hsettings.withCatalog_eq, selectFiles_nil, hcollect]
      exact ⟨rfl, rfl⟩
  | changes hsettings hload =>
    simp only [runTask, runDiff, hsettings.withCatalog_eq, hload]
    exact ⟨rfl, rfl⟩
  | sample hnone hwrite =>
    simp only [runTask, runInit, hnone, hwrite]
    exact ⟨trivial, trivial⟩

/-- What is wrong with a command that ends as fatal, given what is wrong when its
settings hold up. -/
theorem unfit_of_withCatalog (htask : task ≠ .init) {go : Settings → Catalog → Finished}
    (hfatal : (withCatalog t root go).status = .fatal)
    (hgo : ∀ settings, HoldUp t root settings → (go settings (.ofFormats settings.allFormats)).status = .fatal →
      Unfit t root task) : Unfit t root task := by
  rcases holdUp_or_broken t root with ⟨settings, hsettings⟩ | hbroken
  · rw [hsettings.withCatalog_eq] at hfatal
    exact hgo settings hsettings hfatal
  · exact .settings htask hbroken

theorem unfit_of_fatal (h : (runTask terminal color t root task).status = .fatal) : Unfit t root task := by
  cases task with
  | init =>
    simp only [runTask, runInit] at h
    split at h
    · cases h
    · next hnone =>
      split at h
      · next hwrite => exact .sample hnone hwrite
      · cases h
  | start named placeholders yes dryRun =>
    refine unfit_of_withCatalog (by simp) h fun settings hsettings hfatal => ?_
    dsimp only at hfatal
    split at hfatal
    · next e he =>
      obtain rfl := named_eq_nil_of_selectFiles he
      exact .discovery (.inl ⟨_, _, _, rfl⟩) hsettings he
    · exact absurd hfatal (runDocument_status_ne_fatal _ _ _)
  | diff patches placeholders yes dryRun =>
    refine unfit_of_withCatalog (by simp) h fun settings hsettings hfatal => ?_
    dsimp only at hfatal
    split at hfatal
    · next e he => exact .changes hsettings he
    · exact absurd hfatal (runDocument_status_ne_fatal _ _ _)
  | list named format =>
    refine unfit_of_withCatalog (by simp) h fun settings hsettings hfatal => ?_
    dsimp only at hfatal
    split at hfatal
    · next e he =>
      obtain rfl := named_eq_nil_of_selectFiles he
      exact .discovery (.inr ⟨_, rfl⟩) hsettings he
    · cases hfatal

theorem Refused.runOn_ends (h : Refused t arguments) (terminal : Terminal) (terminalColor : Bool) :
    (runOn terminal terminalColor t arguments).status = .fatal ∧
      (runOn terminal terminalColor t arguments).tree = t := by
  rcases h with ⟨f, hparse⟩ | ⟨root, task, hasks, hunfit⟩
  · unfold runOn
    rw [hparse]
    exact ⟨rfl, rfl⟩
  · obtain ⟨color, hrun⟩ := hasks.runOn_eq terminal terminalColor
    rw [hrun]
    exact hunfit.runTask_ends terminal color

theorem refused_of_fatal {terminalColor : Bool} (h : (runOn terminal terminalColor t arguments).status = .fatal) :
    Refused t arguments := by
  unfold runOn at h
  split at h
  · next f hparse => exact .inl ⟨f, hparse⟩
  · cases h
  · cases h
  · next invocation hparse =>
    split at h
    · cases h
    · next task htask => exact .inr ⟨_, task, ⟨invocation, hparse, htask, rfl⟩, unfit_of_fatal h⟩

/-- **A command ends as fatal exactly when it is refused, and then every file is
as it was.** -/
theorem fatal_iff_refused (terminal : Terminal) (terminalColor : Bool) (t : FileTree) (arguments : List Text) :
    ((runOn terminal terminalColor t arguments).status = .fatal ↔ Refused t arguments) ∧
      ((runOn terminal terminalColor t arguments).status = .fatal →
        (runOn terminal terminalColor t arguments).tree = t) :=
  ⟨⟨refused_of_fatal, fun h => (h.runOn_ends terminal terminalColor).1⟩,
    fun h => ((refused_of_fatal h).runOn_ends terminal terminalColor).2⟩

/-! ## Commands that are carried out -/

/-- A command that can be carried out: the catalog in force, the files that the
command is about, and the change that it keeps to. -/
inductive Ready (t : FileTree) (root : Path) : Task → Catalog → List Path → Option ChangeSet → Prop
  | start {named files : List Path} {placeholders yes dryRun : Bool} {settings : Settings}
      (hsettings : HoldUp t root settings)
      (hfiles : (selectFiles t root named settings (.ofFormats settings.allFormats)).1 = .ok files) :
      Ready t root (.start named placeholders yes dryRun) (.ofFormats settings.allFormats) files none
  | diff {patches : Path} {placeholders yes dryRun : Bool} {settings : Settings} {changes : ChangeSet}
      (hsettings : HoldUp t root settings) (hchanges : loadChanges t (root.join patches) = .ok changes) :
      Ready t root (.diff patches placeholders yes dryRun) (.ofFormats settings.allFormats)
        ((changes.paths.map root.join).filter (Catalog.ofFormats settings.allFormats).supports) (some changes)
  | list {named files : List Path} {format : ListFormat} {settings : Settings} (hsettings : HoldUp t root settings)
      (hfiles : (selectFiles t root named settings (.ofFormats settings.allFormats)).1 = .ok files) :
      Ready t root (.list named format) (.ofFormats settings.allFormats) files none

/-- What the status of a command that documents tells about its files. -/
structure Tells {σ : Type} (d : Documenter σ) (w : World σ) (files : List Path) (changes : Option ChangeSet)
    (status : Status) : Prop where
  cancelled : status = .cancelled ↔ ∃ w', Work.runIn w (d.documentFiles files changes) = (.error .cancelled, w')
  failures : status ≠ .cancelled → (status = .failures ↔ ∃ file e, d.FailsOn changes files w file e)
  success : status ≠ .cancelled → (status = .success ↔ ∀ file e, ¬d.FailsOn changes files w file e)
  /-- Work fails by a mishap only. -/
  mishaps : ∀ file e, d.FailsOn changes files w file e →
    ∃ began, d.Reaches changes files w file began ∧ d.Mishap began file e
  /-- A file without a known format fails, and one that cannot be read. -/
  fails : ∀ file began, d.Reaches changes files w file began →
    d.catalog.forPath? file = none ∨ (∃ fault, began.tree.read file = .error fault) →
      ∃ e, d.FailsOn changes files w file e
  /-- So does a file with a question that got no answer, -/
  unanswered : ∀ file began new q e, d.Reaches changes files w file began →
    (Work.runIn began (d.documentFile file (changes.bind (·.find? file)))).2.deeds = began.deeds ++ new →
      .asked q (.error e) ∈ new → e ≠ .cancelled → d.FailsOn changes files w file e
  /-- and one with a construct for which the template cannot be filled in, unless
  the user does not want the file or cancels. -/
  unrendered : ∀ file began k c, d.Reaches changes files w file began →
    d.ComesTo began file (changes.bind (·.find? file)) k c → (∀ text, ∃ e, k.style.render c text = .error e) →
      (Work.runIn began (d.documentFile file (changes.bind (·.find? file)))).1 = .ok none ∨
        (Work.runIn began (d.documentFile file (changes.bind (·.find? file)))).1 = .error .cancelled ∨
          ∃ e, d.FailsOn changes files w file e

theorem isOk_iff {report : RunReport} : report.isOk = true ↔ ∀ file e, (file, e) ∉ report.failures := by
  rw [RunReport.isOk, List.isEmpty_iff, List.eq_nil_iff_forall_not_mem, Prod.forall]

theorem tells_of_run {σ : Type} {d : Documenter σ} {w : World σ} {status : Status}
    (hcancelled : ∀ w', Work.runIn w (d.documentFiles files changes) = (.error .cancelled, w') →
      status = .cancelled)
    (hended : ∀ report w', Work.runIn w (d.documentFiles files changes) = (.ok report, w') →
      status = if report.isOk then .success else .failures) : Tells d w files changes status := by
  obtain ⟨hiff, hfailures, hsuccess⟩ :
      (status = .cancelled ↔ ∃ w', Work.runIn w (d.documentFiles files changes) = (.error .cancelled, w')) ∧
        (status ≠ .cancelled → (status = .failures ↔ ∃ file e, d.FailsOn changes files w file e)) ∧
          (status ≠ .cancelled → (status = .success ↔ ∀ file e, ¬d.FailsOn changes files w file e)) := by
    rcases hrun : Work.runIn w (d.documentFiles files changes) with ⟨e | report, w'⟩
    · obtain rfl := Documenter.documentFiles_error hrun
      have hstatus := hcancelled w' hrun
      exact ⟨⟨fun _ => ⟨w', rfl⟩, fun _ => hstatus⟩, fun h => absurd hstatus h, fun h => absurd hstatus h⟩
    · have hok : report.isOk = true ↔ ∀ file e, ¬d.FailsOn changes files w file e := by
        simp only [isOk_iff, Documenter.mem_failures_iff hrun]
      have hfails : report.isOk = false ↔ ∃ file e, d.FailsOn changes files w file e := by
        rw [← Bool.not_eq_true, hok]
        simp only [not_forall, not_not]
      rw [hended report w' hrun]
      refine ⟨⟨fun h => ?_, fun h => by simp at h⟩, fun _ => ?_, fun _ => ?_⟩
      · split at h <;> cases h
      · rw [← hfails]
        cases report.isOk <;> simp
      · rw [← hok]
        cases report.isOk <;> simp
  exact {
    cancelled := hiff
    failures := hfailures
    success := hsuccess
    mishaps := fun _ _ h => h.mishap
    fails := fun _ _ h => h.failsOn
    unanswered := fun _ _ _ _ _ h => h.failsOn_unanswered
    unrendered := fun _ _ _ _ h => h.failsOn_unrendered }

theorem runDocument_tells (placeholders yes dryRun : Bool) :
    Tells (documenterFor terminal root catalog placeholders yes dryRun)
      { tree := t, prompt := (terminal.orPlaceholders placeholders).start } files changes
      (runDocument terminal color t root catalog files changes placeholders yes dryRun).status := by
  refine tells_of_run (fun w' hrun => ?_) fun report w' hrun => ?_
  · unfold runDocument
    cases files with
    | nil => cases hrun
    | cons file files =>
      rw [if_neg (by simp), documentWith]
      rw [Work.runIn] at hrun
      rw [hrun]
  · unfold runDocument
    cases files with
    | nil =>
      cases hrun
      rfl
    | cons file files =>
      rw [if_neg (by simp), documentWith]
      rw [Work.runIn] at hrun
      rw [hrun]

theorem mem_notices_runList {named : List Path} {format : ListFormat} (hsettings : HoldUp t root settings)
    (hfiles : (selectFiles t root named settings (.ofFormats settings.allFormats)).1 = .ok files) (n : Notice) :
    n ∈ (runList color t root named format).notices ↔
      ∃ file ∈ files, ∃ e, (Catalog.ofFormats settings.allFormats).scanFile t file none = .error e ∧
        .file (file.relativeTo root).text e = n := by
  rw [runList, hsettings.withCatalog_eq]
  simp only [hfiles, List.mem_filterMap, List.mem_map]
  constructor
  · rintro ⟨_, ⟨file, hfile, rfl⟩, h⟩
    dsimp only at h
    split at h
    · cases h
    · next e he => exact ⟨file, hfile, e, he, Option.some.inj h⟩
  · rintro ⟨file, hfile, e, he, rfl⟩
    refine ⟨_, ⟨file, hfile, rfl⟩, ?_⟩
    dsimp only
    rw [he]

/-- **The exit status of a command whose settings hold up.** A command that
documents and is not cancelled ends with failures exactly when the work on one
of its files fails. A listing tells about every file that it cannot scan, and
ends with success all the same. -/
theorem status_of_ready (terminal : Terminal) (terminalColor : Bool) (hasks : Asks t arguments root task)
    (hready : Ready t root task catalog files changes) :
    match task with
    | .init => False
    | .start _ placeholders yes dryRun | .diff _ placeholders yes dryRun =>
      Tells (documenterFor terminal root catalog placeholders yes dryRun)
        { tree := t, prompt := (terminal.orPlaceholders placeholders).start } files changes
        (runOn terminal terminalColor t arguments).status
    | .list _ _ =>
      (runOn terminal terminalColor t arguments).status = .success ∧
        ∀ n, n ∈ (runOn terminal terminalColor t arguments).notices ↔
          ∃ file ∈ files, ∃ e, catalog.scanFile t file none = .error e ∧ .file (file.relativeTo root).text e = n := by
  obtain ⟨color, hrun⟩ := hasks.runOn_eq terminal terminalColor
  rw [hrun]
  cases hready with
  | start hsettings hfiles =>
    simp only [runTask, runStart, hsettings.withCatalog_eq, hfiles]
    exact runDocument_tells _ _ _
  | diff hsettings hchanges =>
    simp only [runTask, runDiff, hsettings.withCatalog_eq, hchanges]
    exact runDocument_tells _ _ _
  | list hsettings hfiles =>
    refine ⟨?_, mem_notices_runList hsettings hfiles⟩
    simp only [runTask, runList, hsettings.withCatalog_eq, hfiles]

end Command

/-! ## A project with one broken format -/

namespace BrokenFormat

/-- A format whose methods have no delimiters. -/
def settingsText : Text := "[[formats]]\nextension = \"rb\"\n[formats.method]\nindicator = \"def\"\n"

def code : Text := "def f():\n    pass\n"

def tree : FileTree :=
  { nodes := [(["dyc.toml"], .file (.text settingsText)), (["a.py"], .file (.text code))] }

def arguments : List Text := ["start", "--placeholders", "--yes", "--path", ".", "a.py"]

set_option maxRecDepth 100000 in
theorem ended : (Command.runOn .unattended false tree arguments).status = .fatal ∧
    (Command.runOn .unattended false { nodes := tree.nodes.tail } arguments).tree.read ⟨"a.py"⟩ ≠ .ok code := by
  decide +kernel

/-- Without its settings the project would be documented. -/
theorem fatal_iff_refused_rb :
    Command.Refused tree arguments ∧ (Command.runOn .unattended false tree arguments).tree = tree ∧
      (Command.runOn .unattended false { nodes := tree.nodes.tail } arguments).tree.read ⟨"a.py"⟩ ≠ .ok code := by
  obtain ⟨hrefused, htree⟩ := Command.fatal_iff_refused .unattended false tree arguments
  exact ⟨hrefused.1 ended.1, htree ended.1, ended.2⟩

end BrokenFormat

/-! ## A file that is not there -/

namespace MissingFile

def root : Path := ⟨"."⟩

def missing : Path := ⟨"./missing.py"⟩

def tree : FileTree := { nodes := [(["a.py"], .file (.text "def f():\n    pass\n"))] }

def catalog : Catalog := .ofFormats ({} : Settings).allFormats

/-- The file that is not there, and one that is. -/
def files : List Path := [missing, ⟨"./a.py"⟩]

theorem holdUp : Command.HoldUp tree root {} :=
  ⟨⟨none, rfl, rfl⟩, Catalog.failures_eq_nil.1 (by decide +kernel)⟩

def start : List Text := ["start", "--placeholders", "--yes", "--path", ".", "missing.py", "a.py"]

set_option maxRecDepth 100000 in
theorem ended_start : (Command.runOn .unattended false tree start).status = .failures := by decide +kernel

/-- Documenting ends with failures. -/
theorem status_of_ready_start :
    (Command.runOn .unattended false tree start).status = .failures ∧
      ∃ file e, (Command.documenterFor .unattended root catalog true true false).FailsOn none files
        { tree, prompt := () } file e := by
  have hasks : Command.Asks tree start root (.start [⟨"missing.py"⟩, ⟨"a.py"⟩] true true false) := ⟨_, rfl, rfl, rfl⟩
  have hready : Command.Ready tree root (.start [⟨"missing.py"⟩, ⟨"a.py"⟩] true true false) catalog files none :=
    .start holdUp rfl
  have htells := Command.status_of_ready .unattended false hasks hready
  exact ⟨ended_start, (htells.failures (by simp [ended_start])).1 ended_start⟩

def list : List Text := ["list", "--path", ".", "missing.py", "a.py"]

set_option maxRecDepth 100000 in
theorem ended_list : (Command.runOn .unattended false tree list).status = .success := by decide +kernel

/-- Listing ends with success, although one of the files cannot be read. -/
theorem listed_with_success :
    Command.Asks tree list root (.list [⟨"missing.py"⟩, ⟨"a.py"⟩] .text) ∧
      Command.Ready tree root (.list [⟨"missing.py"⟩, ⟨"a.py"⟩] .text) catalog files none ∧
      catalog.scanFile tree missing none = .error (.fileAccess missing.text .notFound) ∧
      (Command.runOn .unattended false tree list).status = .success :=
  ⟨⟨_, rfl, rfl, rfl⟩, .list holdUp rfl, rfl, ended_list⟩

end MissingFile
end DocScribe
