/-
A walk, step by step.

`Walk.step` goes on with a walk by one task, a directory or an entry of one, and
`Walk.after` is the walk after so many steps. There is no fuel: as long as tasks
are left, a step lowers `Walk.load` (`Walk.load_step_lt`), so they come to an
end, and what they come to is the harvest of the walk (`Walk.does_directory`).
`Walk.Sound` is what a step keeps: the tasks that are left and the entries that
were looked at are together what the directories list that were entered, each
once.
-/
import DocScribe.Catalog
import DocScribe.Proofs.Routes
import Mathlib.Logic.Function.Iterate

namespace DocScribe

namespace FileTree

variable {t : FileTree}

theorem entries_eq (t : FileTree) (place : Place) :
    t.entries place = (t.nodes.map (·.1)).filterMap fun p => p.getLast?.filter fun _ => p.dropLast = place := by
  rw [entries, List.filterMap_map]
  refine List.filterMap_congr fun n _ => ?_
  cases hlast : n.1.getLast? with
  | none => simp [hlast]
  | some name => simp [hlast, Option.filter]

/-- No name stands twice in a directory. -/
theorem Proper.nodup_entries (ht : t.Proper) (place : Place) : (t.entries place).Nodup := by
  rw [entries_eq]
  refine ht.distinct.filterMap fun p q name hp hq => ?_
  simp only [Option.mem_def, Option.filter_eq_some_iff, decide_eq_true_eq] at hp hq
  obtain ⟨above, rfl⟩ := List.getLast?_eq_some_iff.1 hp.1
  obtain ⟨above', rfl⟩ := List.getLast?_eq_some_iff.1 hq.1
  rw [List.dropLast_concat] at hp hq
  rw [hp.2, hq.2]

end FileTree

namespace Walk

variable {w : Walk}

/-! ## Steps -/

/-- An entry of a directory, and the path that led to the directory. -/
structure Entry where
  dir : Path
  place : Place
  name : Text

def Entry.path (e : Entry) : Path := e.dir.join ⟨e.name⟩

/-- Where an entry stands, whatever path led there. -/
def Entry.site (e : Entry) : Place × Text := (e.place, e.name)

/-- What a directory lists, as entries. -/
def entriesOf (w : Walk) (d : Path × Place) : List Entry := (w.tree.entries d.2).map fun name => ⟨d.1, d.2, name⟩

/-- What a walk has still to do. -/
inductive Task where
  | directory (dir : Path)
  | entry (e : Entry)

/-- How far a walk has come. -/
structure Stage where
  /-- What is left, the next task first. -/
  tasks : List Task
  harvest : Harvest := {}
  /-- The directories that were listed. -/
  entered : List (Path × Place) := []
  /-- The entries that were looked at. -/
  looked : List Entry := []

/-- A directory is listed, unless it was before. -/
def lookInto (w : Walk) (dir : Path) (s : Stage) : Stage :=
  match w.tree.directory? dir with
  | none => s
  | some place =>
    if s.harvest.visited.contains place then
      { s with harvest := { s.harvest with events := s.harvest.events ++ [.visitedBefore dir] } }
    else
      { s with
        tasks := (w.entriesOf (dir, place)).map .entry ++ s.tasks
        harvest := { s.harvest with visited := place :: s.harvest.visited }
        entered := s.entered ++ [(dir, place)] }

/-- An entry is looked at: a file can be taken, and a directory can be the next
task. -/
def lookAt (w : Walk) (e : Entry) (s : Stage) : Stage :=
  { s with
    tasks := if w.opens e.path then .directory e.path :: s.tasks else s.tasks
    harvest := w.addEntry (fun _ h => h) e.dir s.harvest e.name
    looked := s.looked ++ [e] }

/-- A walk goes on by one task. -/
def step (w : Walk) (s : Stage) : Stage :=
  match s.tasks with
  | [] => s
  | .directory dir :: tasks => w.lookInto dir { s with tasks }
  | .entry e :: tasks => w.lookAt e { s with tasks }

/-- A walk from the root after so many steps. -/
def after (w : Walk) (n : Nat) : Stage := w.step^[n] { tasks := [.directory w.root] }

def Task.entry? : Task → Option Entry
  | .directory _ => none
  | .entry e => some e

/-- The entries that are still to be looked at. -/
def Stage.pending (s : Stage) : List Entry := s.tasks.filterMap Task.entry?

theorem pending_directory (dir : Path) (tasks : List Task) :
    (Task.directory dir :: tasks).filterMap Task.entry? = tasks.filterMap Task.entry? := rfl

theorem pending_entry (e : Entry) (tasks : List Task) :
    (Task.entry e :: tasks).filterMap Task.entry? = e :: tasks.filterMap Task.entry? := rfl

theorem pending_entries (entries : List Entry) : (entries.map Task.entry).filterMap Task.entry? = entries := by
  rw [List.filterMap_map]
  exact List.filterMap_some

theorem pending_lookAt (e : Entry) (s : Stage) : (w.lookAt e s).pending = s.pending := by
  rw [Stage.pending, lookAt]
  split
  · exact pending_directory e.path s.tasks
  · rfl

theorem step_nil {s : Stage} (hs : s.tasks = []) : w.step s = s := by rw [step, hs]

theorem step_directory {s : Stage} {dir : Path} {tasks : List Task} (hs : s.tasks = .directory dir :: tasks) :
    w.step s = w.lookInto dir { s with tasks } := by rw [step, hs]

theorem step_entry {s : Stage} {e : Entry} {tasks : List Task} (hs : s.tasks = .entry e :: tasks) :
    w.step s = w.lookAt e { s with tasks } := by rw [step, hs]

/-- To look at an entry without entering it is to take it or not. -/
theorem addEntry_stay (w : Walk) (dir : Path) (h : Harvest) (name : Text) :
    (w.addEntry (fun _ h => h) dir h name).visited = h.visited ∧
      (w.addEntry (fun _ h => h) dir h name).files = h.files ++ [dir.join ⟨name⟩].filter w.gathers := by
  generalize hpath : dir.join ⟨name⟩ = path
  simp only [addEntry, hpath, List.filter_cons, List.filter_nil]
  cases hdirectory : w.tree.isDirectory path with
  | false =>
    cases hskips : w.skips path false <;> cases htakes : w.takes path <;> simp [gathers, hdirectory, hskips, htakes]
  | true => cases w.skips path true <;> cases w.isProject path <;> simp [gathers, hdirectory]

/-- A directory that a walk does not open is not entered. -/
theorem addEntry_eq (w : Walk) (enter : Path → Harvest → Harvest) (dir : Path) (h : Harvest) (name : Text) :
    w.addEntry enter dir h name =
      if w.opens (dir.join ⟨name⟩) then enter (dir.join ⟨name⟩) h else w.addEntry (fun _ h => h) dir h name := by
  generalize hpath : dir.join ⟨name⟩ = path
  simp only [addEntry, hpath, opens]
  cases w.tree.isDirectory path with
  | false => simp
  | true => cases w.skips path true <;> cases w.isProject path <;> simp

/-! ## The steps come to an end -/

/-- The most steps that a walk still takes: an entry that was not seen can be
looked at and then be a directory. -/
def load (w : Walk) (s : Stage) : Nat := 2 * w.unseen s.harvest.visited + s.tasks.length + s.pending.length

theorem load_lookInto (dir : Path) (s : Stage) : w.load (w.lookInto dir s) ≤ w.load s := by
  unfold lookInto
  split
  · exact Nat.le_refl _
  next place _ =>
  split
  · exact Nat.le_refl _
  next hnew =>
  rw [List.contains_iff_mem] at hnew
  have hseen := unseen_add_entries (w := w) hnew
  simp only [load, Stage.pending, List.filterMap_append, pending_entries, List.length_append, List.length_map,
    entriesOf]
  omega

theorem load_lookAt (e : Entry) (s : Stage) : w.load (w.lookAt e s) ≤ w.load s + 1 := by
  simp only [load, pending_lookAt]
  simp only [lookAt, (addEntry_stay w _ _ _).1]
  split
  · rw [List.length_cons]
    omega
  · omega

/-- **A step makes the load smaller.** -/
theorem load_step_lt {s : Stage} (hs : s.tasks ≠ []) : w.load (w.step s) < w.load s := by
  obtain ⟨task, tasks, hs⟩ := List.exists_cons_of_ne_nil hs
  cases task with
  | directory dir =>
    have hload : w.load s = w.load { s with tasks } + 1 := by
      simp only [load, Stage.pending, hs, pending_directory, List.length_cons]
      omega
    rw [step_directory hs, hload]
    exact Nat.lt_succ_of_le (load_lookInto dir _)
  | entry e =>
    have hload : w.load s = w.load { s with tasks } + 2 := by
      simp only [load, Stage.pending, hs, pending_entry, List.length_cons]
      omega
    rw [step_entry hs, hload]
    exact Nat.lt_succ_of_le (load_lookAt e _)

/-- **No task is left after as many steps as the load says.** -/
theorem tasks_iterate {s : Stage} {n : Nat} (hn : w.load s ≤ n) : (w.step^[n] s).tasks = [] := by
  induction n generalizing s with
  | zero =>
    by_contra hs
    exact absurd (load_step_lt (w := w) hs) (by simp only [Function.iterate_zero, id_eq]; omega)
  | succ n ih =>
    by_cases hs : s.tasks = []
    · rwa [Function.iterate_fixed (step_nil hs)]
    · rw [Function.iterate_succ_apply]
      have := load_step_lt (w := w) hs
      exact ih (by omega)

/-- It does not matter how often a walk goes on that has come to its end. -/
theorem iterate_eq {s : Stage} {m n : Nat} (hm : (w.step^[m] s).tasks = []) (hn : (w.step^[n] s).tasks = []) :
    w.step^[m] s = w.step^[n] s := by
  wlog hle : m ≤ n generalizing m n
  · exact (this hn hm (Nat.le_of_not_le hle)).symm
  obtain ⟨k, rfl⟩ := Nat.exists_eq_add_of_le' hle
  rw [Function.iterate_add_apply, Function.iterate_fixed (step_nil hm)]

/-! ## The steps come to the harvest -/

/-- Some tasks take a walk from one harvest to another, whatever comes after
them. -/
def Does (w : Walk) (tasks : List Task) (h h' : Harvest) : Prop :=
  ∀ s rest, s.tasks = tasks ++ rest → s.harvest = h →
    ∃ n, (w.step^[n] s).tasks = rest ∧ (w.step^[n] s).harvest = h'

namespace Does

variable {task : Task} {tasks tasks₁ tasks₂ : List Task} {h h₁ h₂ : Harvest}

theorem nil (w : Walk) (h : Harvest) : w.Does [] h h := fun _ _ hs hh => ⟨0, hs, hh⟩

theorem append (h₁₂ : w.Does tasks₁ h h₁) (h₂₃ : w.Does tasks₂ h₁ h₂) : w.Does (tasks₁ ++ tasks₂) h h₂ := by
  intro s rest hs hh
  obtain ⟨n, hs, hh⟩ := h₁₂ s (tasks₂ ++ rest) (by rw [hs, List.append_assoc]) hh
  obtain ⟨m, hs, hh⟩ := h₂₃ _ rest hs hh
  refine ⟨m + n, ?_⟩
  rw [Function.iterate_add_apply]
  exact ⟨hs, hh⟩

/-- One step, and what comes of it. -/
theorem head (hstep : ∀ s rest, s.tasks = task :: rest → s.harvest = h →
      (w.step s).tasks = tasks ++ rest ∧ (w.step s).harvest = h₁) (hrest : w.Does tasks h₁ h₂) :
    w.Does [task] h h₂ := by
  intro s rest hs hh
  obtain ⟨hs, hh⟩ := hstep s rest hs hh
  obtain ⟨n, hs, hh⟩ := hrest _ rest hs hh
  exact ⟨n + 1, hs, hh⟩

end Does

theorem does_entry {enter : Path → Harvest → Harvest} {h : Harvest} (e : Entry)
    (henter : w.Does [.directory e.path] h (enter e.path h)) :
    w.Does [.entry e] h (w.addEntry enter e.dir h e.name) := by
  rw [addEntry_eq, ← Entry.path]
  by_cases hopens : w.opens e.path = true
  · have hstay : w.addEntry (fun _ h => h) e.dir h e.name = h := by
      rw [addEntry_eq]
      exact if_pos hopens
    rw [if_pos hopens]
    refine .head (fun s rest hs hh => ?_) henter
    rw [step_entry hs, lookAt, if_pos hopens, hh, hstay]
    exact ⟨rfl, rfl⟩
  · rw [if_neg hopens]
    refine .head (fun s rest hs hh => ?_) (.nil w _)
    rw [step_entry hs, lookAt, if_neg hopens, hh]
    exact ⟨rfl, rfl⟩

theorem does_entries {enter : Path → Harvest → Harvest} {seen : List Place}
    (hcovers : ∀ dir h, seen ⊆ h.visited → w.Covers [dir] [] h (enter dir h))
    (henter : ∀ dir h, seen ⊆ h.visited → w.Does [.directory dir] h (enter dir h)) (d : Path × Place)
    (names : List Text) {h : Harvest} (hseen : seen ⊆ h.visited) :
    w.Does ((names.map fun name => Entry.mk d.1 d.2 name).map .entry) h (names.foldl (w.addEntry enter d.1) h) := by
  induction names generalizing h with
  | nil => exact .nil w h
  | cons name names ih =>
    have hentry := does_entry ⟨d.1, d.2, name⟩ (henter _ h hseen)
    have hgrows := (addEntry_covers (fun dir => hcovers dir h hseen) d.1 name).grows
    exact hentry.append (ih (List.Subset.trans hseen hgrows))

/-- **A directory takes a walk to the harvest with that of the directory.** -/
theorem does_directory {fuel : Nat} (dir : Path) {h : Harvest} (hfuel : w.unseen h.visited < fuel) :
    w.Does [.directory dir] h (w.addDirectory fuel dir h) := by
  induction fuel generalizing dir h with
  | zero => exact absurd hfuel (Nat.not_lt_zero _)
  | succ fuel ih =>
    rw [addDirectory]
    split
    · next hdir =>
      refine .head (fun s rest hs hh => ?_) (.nil w h)
      rw [step_directory hs, lookInto, hdir]
      exact ⟨rfl, hh⟩
    next place hdir =>
    split
    · next hseen =>
      refine .head (fun s rest hs hh => ?_) (.nil w _)
      simp only [step_directory hs, lookInto, hdir, hh, hseen]
      exact ⟨rfl, rfl⟩
    next hnew =>
    have hentries : w.Does ((w.entriesOf (dir, place)).map .entry) { h with visited := place :: h.visited }
        ((w.tree.entries place).foldl (w.addEntry (w.addDirectory fuel) dir)
          { h with visited := place :: h.visited }) := by
      by_cases hsome : w.tree.entries place = []
      · rw [entriesOf, hsome]
        exact .nil w _
      · -- the fuel is enough for the directories below, since the entries were not seen before
        rw [List.contains_iff_mem] at hnew
        have hfuel' {h' : Harvest} (hseen : place :: h.visited ⊆ h'.visited) : w.unseen h'.visited < fuel :=
          Nat.lt_of_le_of_lt (w.unseen_le hseen)
            (Nat.lt_of_lt_of_le (unseen_lt hnew hsome) (Nat.le_of_lt_succ hfuel))
        exact does_entries (fun dir h' hseen => w.addDirectory_covers dir (hfuel' hseen))
          (fun dir h' hseen => ih dir (hfuel' hseen)) (dir, place) _ (List.Subset.refl _)
    refine .head (fun s rest hs hh => ?_) hentries
    simp only [step_directory hs, lookInto, hdir, hh, hnew]
    exact ⟨rfl, rfl⟩

/-! ## What a step keeps -/

/-- What is true of a walk at all times. -/
structure Sound (w : Walk) (s : Stage) : Prop where
  visited : s.harvest.visited = (s.entered.map (·.2)).reverse
  nodup : (s.entered.map (·.2)).Nodup
  leads : ∀ d ∈ s.entered, w.tree.directory? d.1 = some d.2
  listed : (s.looked ++ s.pending).Perm (s.entered.flatMap w.entriesOf)
  files : s.harvest.files = (s.looked.filter fun e => w.gathers e.path).map Entry.path

namespace Sound

variable {s : Stage}

theorem start (w : Walk) (dir : Path) : w.Sound { tasks := [.directory dir] } := by
  constructor <;> simp [Stage.pending, Task.entry?]

theorem drop {dir : Path} {tasks : List Task} (h : w.Sound s) (hs : s.tasks = .directory dir :: tasks) :
    w.Sound { s with tasks } where
  visited := h.visited
  nodup := h.nodup
  leads := h.leads
  listed := by simpa only [Stage.pending, hs, pending_directory] using h.listed
  files := h.files

theorem lookInto (h : w.Sound s) (dir : Path) : w.Sound (w.lookInto dir s) := by
  unfold Walk.lookInto
  split
  · exact h
  next place hdir =>
  split
  · exact ⟨h.visited, h.nodup, h.leads, h.listed, h.files⟩
  next hnew =>
  have hfresh : place ∉ s.entered.map (·.2) := by
    rwa [List.contains_iff_mem, h.visited, List.mem_reverse] at hnew
  constructor
  case visited => simp [h.visited]
  case nodup =>
    rw [List.map_append, List.map_singleton, ← List.concat_eq_append]
    exact h.nodup.concat hfresh
  case leads => exact List.forall_mem_append.2 ⟨h.leads, List.forall_mem_singleton.2 hdir⟩
  case listed =>
    rw [Stage.pending, List.filterMap_append, pending_entries, List.flatMap_append, List.flatMap_singleton]
    have hswap : (s.looked ++ (w.entriesOf (dir, place) ++ s.pending)).Perm
        (s.looked ++ s.pending ++ w.entriesOf (dir, place)) := by
      rw [List.append_assoc]
      exact List.perm_append_comm.append_left _
    exact hswap.trans (h.listed.append_right _)
  case files => exact h.files

theorem lookAt {e : Entry} {tasks : List Task} (h : w.Sound s) (hs : s.tasks = .entry e :: tasks) :
    w.Sound (w.lookAt e { s with tasks }) := by
  obtain ⟨hvisited, hfiles⟩ := w.addEntry_stay e.dir s.harvest e.name
  constructor
  case visited => exact hvisited.trans h.visited
  case nodup => exact h.nodup
  case leads => exact h.leads
  case listed =>
    have hlisted := h.listed
    rw [Stage.pending, hs, pending_entry] at hlisted
    rw [pending_lookAt]
    simpa [Walk.lookAt, Stage.pending] using hlisted
  case files =>
    refine hfiles.trans ?_
    rw [← Entry.path, Walk.lookAt, List.filter_append, List.map_append, h.files]
    by_cases hgathers : w.gathers e.path = true <;> simp [hgathers]

/-- **A step keeps what is true of a walk.** -/
theorem step (h : w.Sound s) : w.Sound (w.step s) := by
  rcases hs : s.tasks with _ | ⟨dir | e, tasks⟩
  · rwa [step_nil hs]
  · rw [step_directory hs]
    exact (h.drop hs).lookInto dir
  · rw [step_entry hs]
    exact h.lookAt hs

theorem iterate (h : w.Sound s) (n : Nat) : w.Sound (w.step^[n] s) := by
  induction n generalizing s with
  | zero => exact h
  | succ n ih => exact ih h.step

/-- No entry is looked at twice. -/
theorem nodup_looked (h : w.Sound s) (ht : w.tree.Proper) : (s.looked.map Entry.site).Nodup := by
  have hsites : ((s.entered.flatMap w.entriesOf).map Entry.site).Nodup := by
    rw [List.map_flatMap, List.nodup_flatMap]
    refine ⟨fun d _ => ?_, (List.pairwise_map.1 h.nodup).imp fun hne => ?_⟩
    · rw [entriesOf, List.map_map]
      exact (ht.nodup_entries d.2).map fun name name' heq => (Prod.mk.inj heq).2
    · refine List.disjoint_left.2 fun site hsite hsite' => ?_
      simp only [entriesOf, List.map_map, List.mem_map, Function.comp_apply, Entry.site] at hsite hsite'
      obtain ⟨name, -, rfl⟩ := hsite
      obtain ⟨name', -, heq⟩ := hsite'
      exact hne (Prod.mk.inj heq).1.symm
  have hall := (h.listed.map Entry.site).nodup_iff.2 hsites
  rw [List.map_append] at hall
  exact hall.of_append_left

end Sound

/-- **A walk comes to its end**, and then it has its harvest. -/
theorem after_end (w : Walk) :
    (w.after (2 * w.tree.nodes.length + 1)).tasks = [] ∧
      (w.after (2 * w.tree.nodes.length + 1)).harvest = w.harvest := by
  have hunseen : w.unseen [] ≤ w.tree.nodes.length := List.countP_le_length
  have hdone : (w.after (2 * w.tree.nodes.length + 1)).tasks = [] := by
    refine tasks_iterate ?_
    simp only [load, Stage.pending, pending_directory, List.length_singleton, List.filterMap_nil, List.length_nil]
    omega
  have hdoes : w.Does [.directory w.root] {} w.harvest := does_directory w.root (by dsimp only; omega)
  obtain ⟨n, htasks, hharvest⟩ := hdoes { tasks := [.directory w.root] } [] rfl rfl
  refine ⟨hdone, ?_⟩
  rw [after, iterate_eq hdone htasks, hharvest]

/-- **A walk ends, lists no directory twice and looks at no entry twice**: an
entry that it gathers is one of its files, and no other files are there. -/
theorem after_eq_harvest (w : Walk) (ht : w.tree.Proper) :
    ∃ entered looked,
      w.after (2 * w.tree.nodes.length + 1) = { tasks := [], harvest := w.harvest, entered, looked } ∧
      (entered.map (·.2)).Nodup ∧ (∀ d ∈ entered, w.tree.directory? d.1 = some d.2) ∧
      looked.Perm (entered.flatMap w.entriesOf) ∧ (looked.map Entry.site).Nodup ∧
      w.harvest.files = (looked.filter fun e => w.gathers e.path).map Entry.path := by
  obtain ⟨htasks, hharvest⟩ := w.after_end
  have hsound : w.Sound (w.after (2 * w.tree.nodes.length + 1)) := (Sound.start w w.root).iterate _
  generalize w.after (2 * w.tree.nodes.length + 1) = s at htasks hharvest hsound
  obtain ⟨tasks, harvest, entered, looked⟩ := s
  obtain rfl : tasks = [] := htasks
  obtain rfl : harvest = w.harvest := hharvest
  have hlisted : looked.Perm (entered.flatMap w.entriesOf) := by
    simpa only [Stage.pending, List.filterMap_nil, List.append_nil] using hsound.listed
  exact ⟨entered, looked, rfl, hsound.nodup, hsound.leads, hlisted, hsound.nodup_looked ht, hsound.files⟩

namespace LinkCircles

/-- Two links lead to a directory, and a link in it leads out again. -/
def tree : FileTree :=
  { nodes :=
      [(["src"], .dir), (["src", "up"], .link ⟨".."⟩), (["src", "x.py"], .file (.text "")),
        (["lib"], .link ⟨"src"⟩), (["old"], .link ⟨"src"⟩)] }

def walk : Walk :=
  { tree, root := ⟨"."⟩, exclude := .empty ⟨"."⟩,
    pass := .supported (.empty ⟨"."⟩) (Catalog.ofFormats [.python]).supports }

set_option maxRecDepth 100000 in
theorem after_eq_harvest_circles :
    tree.Proper ∧ walk.harvest.files = [⟨"./src/x.py"⟩] ∧ ∃ entered looked,
      walk.after 11 = { tasks := [], harvest := walk.harvest, entered, looked } ∧ (entered.map (·.2)).Nodup ∧
        (looked.map Entry.site).Nodup := by
  have hproper : tree.Proper := ⟨by decide, by decide⟩
  have hfiles : walk.harvest.files = [⟨"./src/x.py"⟩] := by decide +kernel
  obtain ⟨entered, looked, hend, hentered, -, -, hlooked, -⟩ := after_eq_harvest walk hproper
  exact ⟨hproper, hfiles, entered, looked, hend, hentered, hlooked⟩

end LinkCircles
end Walk
end DocScribe
