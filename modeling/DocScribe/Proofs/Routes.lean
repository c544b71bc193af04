/-
Ways down from the root of a project.

`Walk.Route` is a way down that a walk can take and that comes to no place
twice. A tour comes to its directories by routes through directories that it
entered (`Walk.Tour.route`). Which routes a tour follows depends on the order of
the entries, but it follows every route whose places can be reached in no other
way (`Walk.Tour.follows_sole`), and a route that is always listed first
(`Walk.Tour.follows_first`). A path tells the route that it was come to by
(`Walk.Route.eq_of_components`).
-/
import DocScribe.Proofs.PathFacts
import DocScribe.Proofs.Tours

namespace DocScribe

/-! ## Names -/

/-- What can stand between two slashes as the name of an entry. -/
def Text.IsName (name : Text) : Prop := name ≠ [] ∧ name ≠ ['.'] ∧ name ≠ ['.', '.'] ∧ '/' ∉ name

instance (name : Text) : Decidable name.IsName := inferInstanceAs (Decidable (_ ∧ _))

/-- The nodes of a tree stand at different places, under names. -/
structure FileTree.Proper (t : FileTree) : Prop where
  distinct : (t.nodes.map (·.1)).Nodup
  named : ∀ n ∈ t.nodes, ∀ name ∈ n.1, name.IsName

theorem FileTree.Proper.isName {t : FileTree} (ht : t.Proper) {place : Place} {name : Text}
    (h : name ∈ t.entries place) : name.IsName := by
  obtain ⟨n, hn, hplace⟩ := mem_entries.1 h
  exact ht.named n hn name (by simp [hplace])

theorem Path.components_join_name {dir : Path} (hdir : dir.text ≠ []) {name : Text} (hname : name.IsName) :
    (dir.join ⟨name⟩).components = dir.components ++ [.name name] := by
  obtain ⟨hsome, hdot, hdots, hslash⟩ := hname
  have hrelative : (Path.mk name).isAbsolute = false := by
    rw [isAbsolute, decide_eq_false_iff_not]
    exact fun h => hslash (List.mem_of_mem_head? (Option.mem_def.2 h))
  rw [components_join hdir hrelative, filter_components hrelative false, Text.pieces_of_not_mem hslash]
  simp [componentOf, hsome, hdot, hdots]

theorem FileTree.text_ne_nil {t : FileTree} {dir : Path} {place : Place} (h : t.directory? dir = some place) :
    dir.text ≠ [] := by
  intro hempty
  simp [directory?, resolve, hempty] at h

namespace Walk

variable {w : Walk}

/-! ## Routes -/

/-- The directories that a way down from the root can go on to; the last
directory of the way stands first. -/
def onward (w : Walk) : List (Path × Place) → List Path
  | [] => [w.root]
  | e :: _ => w.below e.1 e.2

/-- A way down from the root that a walk can take, and that comes to no place
twice. The last directory stands first. -/
inductive Route (w : Walk) : List (Path × Place) → Prop
  | start : Route w []
  | step {way : List (Path × Place)} {dir : Path} {place : Place} (hway : Route w way) (hmem : dir ∈ w.onward way)
      (hdir : w.tree.directory? dir = some place) (hnew : place ∉ way.map (·.2)) : Route w ((dir, place) :: way)

theorem mem_below {dir path : Path} {place : Place} :
    path ∈ w.below dir place ↔ (∃ name ∈ w.tree.entries place, dir.join ⟨name⟩ = path) ∧ w.opens path = true := by
  rw [below, List.mem_filter, listed, List.mem_map]

theorem mem_taken {dir path : Path} {place : Place} :
    path ∈ w.taken dir place ↔ (∃ name ∈ w.tree.entries place, dir.join ⟨name⟩ = path) ∧ w.gathers path = true := by
  rw [taken, List.mem_filter, listed, List.mem_map]

/-! ## Paths and routes -/

namespace Route

variable {e e' : Path × Place} {way way' : List (Path × Place)}

/-- Ways that are all that they can go on to are all the routes there are. -/
theorem mem_of_closed {ways : List (List (Path × Place))} (hstart : [] ∈ ways)
    (hstep : ∀ way ∈ ways, ∀ dir ∈ w.onward way, ∀ place ∈ w.tree.directory? dir,
      place ∉ way.map (·.2) → (dir, place) :: way ∈ ways) (h : w.Route way) : way ∈ ways := by
  induction h with
  | start => exact hstart
  | step _ hmem hdir hnew ih => exact hstep _ ih _ hmem _ (Option.mem_def.2 hdir) hnew

theorem directory (h : w.Route (e :: way)) : w.tree.directory? e.1 = some e.2 := by
  cases h with
  | step _ _ hdir _ => exact hdir

theorem tail (h : w.Route (e :: way)) : w.Route way := by
  cases h with
  | step hway _ _ _ => exact hway

/-- A directory behind the root is an entry of the one before it. -/
theorem exists_name (h : w.Route (e :: e' :: way)) : ∃ name ∈ w.tree.entries e'.2, e'.1.join ⟨name⟩ = e.1 := by
  cases h with
  | step _ hmem _ _ => exact (mem_below.1 hmem).1

theorem length_components (ht : w.tree.Proper) (h : w.Route (e :: way)) :
    e.1.components.length = w.root.components.length + way.length := by
  induction way generalizing e with
  | nil =>
    cases h with
    | step _ hmem _ _ => rw [List.mem_singleton.1 hmem, List.length_nil, Nat.add_zero]
  | cons e' way ih =>
    obtain ⟨name, hname, hjoin⟩ := h.exists_name
    rw [← hjoin, Path.components_join_name (FileTree.text_ne_nil h.tail.directory) (ht.isName hname),
      List.length_append, ih h.tail, List.length_singleton, List.length_cons, Nat.add_assoc]

theorem path_eq_root (h : w.Route [e]) : e.1 = w.root := by
  cases h with
  | step _ hmem _ _ => exact List.mem_singleton.1 hmem

section two_walks
variable {v : Walk} (htree : v.tree = w.tree) (hroot : v.root = w.root)
include htree

theorem head_eq (h : w.Route (e :: way)) (h' : v.Route (e' :: way')) (hpath : e.1 = e'.1) : e = e' := by
  have hdir := h.directory
  rw [hpath, ← htree, h'.directory] at hdir
  exact Prod.ext hpath (Option.some.inj hdir).symm

theorem components_inj (ht : w.tree.Proper) (h : w.Route (e :: way)) (h' : v.Route (e' :: way')) {name name' : Text}
    (hname : name ∈ w.tree.entries e.2) (hname' : name' ∈ w.tree.entries e'.2)
    (hsame : (e.1.join ⟨name⟩).components = (e'.1.join ⟨name'⟩).components) :
    e.1.components = e'.1.components ∧ name = name' := by
  have hdir' : w.tree.directory? e'.1 = some e'.2 := by rw [← htree, h'.directory]
  rw [Path.components_join_name (FileTree.text_ne_nil h.directory) (ht.isName hname),
    Path.components_join_name (FileTree.text_ne_nil hdir') (ht.isName hname')] at hsame
  obtain ⟨habove, hlast⟩ := List.append_inj' hsame rfl
  cases hlast
  exact ⟨habove, rfl⟩

include hroot

/-- **A path tells the route by which it was come to**, whatever is passed over
on the way. -/
theorem eq_of_components (ht : w.tree.Proper) (h : w.Route (e :: way)) (h' : v.Route (e' :: way'))
    (hsame : e.1.components = e'.1.components) : e :: way = e' :: way' := by
  have hlength : way.length = way'.length := by
    have hcount := h.length_components ht
    rw [hsame, h'.length_components (htree ▸ ht), hroot] at hcount
    omega
  induction way generalizing e e' way' with
  | nil =>
    obtain rfl := List.length_eq_zero_iff.1 hlength.symm
    rw [h.head_eq htree h' (by rw [h.path_eq_root, h'.path_eq_root, hroot])]
  | cons f way ih =>
    obtain ⟨f', way', rfl⟩ := List.exists_cons_of_length_eq_add_one hlength.symm
    obtain ⟨name, hname, hjoin⟩ := h.exists_name
    obtain ⟨name', hname', hjoin'⟩ := h'.exists_name
    rw [htree] at hname'
    rw [← hjoin, ← hjoin'] at hsame
    obtain ⟨habove, rfl⟩ := components_inj htree ht h.tail h'.tail hname hname' hsame
    cases ih h.tail h'.tail habove (Nat.succ.inj hlength)
    rw [h.head_eq htree h' (hjoin.symm.trans hjoin')]

/-- A file that is taken tells the route to its directory. -/
theorem eq_of_taken (ht : w.tree.Proper) (h : w.Route (e :: way)) (h' : v.Route (e' :: way')) {file file' : Path}
    (hfile : file ∈ w.taken e.1 e.2) (hfile' : file' ∈ v.taken e'.1 e'.2)
    (hsame : file.components = file'.components) : e :: way = e' :: way' ∧ file = file' := by
  obtain ⟨⟨name, hname, rfl⟩, -⟩ := mem_taken.1 hfile
  obtain ⟨⟨name', hname', rfl⟩, -⟩ := mem_taken.1 hfile'
  rw [htree] at hname'
  obtain ⟨habove, rfl⟩ := components_inj htree ht h h' hname hname' hsame
  cases eq_of_components htree hroot ht h h' habove
  exact ⟨rfl, rfl⟩

end two_walks

end Route

/-! ## The routes of a tour -/

namespace Tour

variable {found : List (Path × Place)}

/-- **A tour comes to its directories by routes through directories that it
entered**, if it could go on so to those that it starts with. -/
theorem route {dirs : List Path} {before found : List (Path × Place)}
    (h : w.Tour dirs (before.map (·.2)) found)
    (hdirs : ∀ dir ∈ dirs, ∃ way ⊆ before, w.Route way ∧ dir ∈ w.onward way) :
    ∀ e ∈ found, ∃ way ⊆ before ++ found, w.Route (e :: way) := by
  generalize hseen : before.map (·.2) = seen at h
  induction h generalizing before with
  | done seen => simp
  | away _ _ ih => exact ih (List.forall_mem_cons.1 hdirs).2 hseen
  | again _ _ _ ih => exact ih (List.forall_mem_cons.1 hdirs).2 hseen
  | @enter dir place dirs seen found hdir hnew _ ih =>
    obtain ⟨⟨way, hbefore, hway, hmem⟩, hdirs⟩ := List.forall_mem_cons.1 hdirs
    have hroute : w.Route ((dir, place) :: way) :=
      .step hway hmem hdir fun hplace => hnew (hseen ▸ List.map_subset _ hbefore hplace)
    have hnext : ∀ dir' ∈ w.below dir place ++ dirs,
        ∃ way ⊆ (dir, place) :: before, w.Route way ∧ dir' ∈ w.onward way := by
      intro dir' hdir'
      rcases List.mem_append.1 hdir' with hbelow | hlater
      · exact ⟨_, List.cons_subset_cons _ hbefore, hroute, hbelow⟩
      · obtain ⟨way', hbefore', hway'⟩ := hdirs dir' hlater
        exact ⟨way', List.Subset.trans hbefore' (List.subset_cons_self _ _), hway'⟩
    have hlater := ih hnext (by rw [List.map_cons, hseen])
    refine List.forall_mem_cons.2 ⟨⟨way, ?_, hroute⟩, fun e he => ?_⟩
    · exact List.Subset.trans hbefore (List.subset_append_left _ _)
    obtain ⟨way', hsub, hway'⟩ := hlater e he
    refine ⟨way', List.Subset.trans hsub ?_, hway'⟩
    intro e' he'
    simp only [List.mem_append, List.mem_cons] at he' ⊢
    tauto

theorem route_of_mem (h : w.Tour [w.root] [] found) {e : Path × Place} (he : e ∈ found) :
    ∃ way ⊆ found, w.Route (e :: way) := by
  have hroot : ∀ dir ∈ [w.root], ∃ way ⊆ [], w.Route way ∧ dir ∈ w.onward way :=
    fun dir hdir => ⟨[], List.Subset.refl _, .start, hdir⟩
  exact route h hroot e he

end Tour

/-- The places of a way can be reached in no other way. -/
def Sole (w : Walk) (way : List (Path × Place)) : Prop :=
  ∀ e ∈ way, ∀ e' way', w.Route (e' :: way') → e'.2 = e.2 → e' = e

/-- A way that is always listed first. -/
inductive First (w : Walk) : List (Path × Place) → Prop
  | start : First w []
  | step {way : List (Path × Place)} {e : Path × Place} (hway : First w way)
      (hfirst : (w.onward way).head? = some e.1) : First w (e :: way)

namespace Tour

variable {found : List (Path × Place)}

/-- **A route without a rival is followed**, whatever the order of the
entries. -/
theorem follows_sole (h : w.Tour [w.root] [] found) {way : List (Path × Place)} (hway : w.Route way)
    (hsole : w.Sole way) : way ⊆ found := by
  induction hway with
  | start => exact List.nil_subset _
  | @step way dir place hway hmem hdir _ ih =>
    obtain ⟨hlast, hsole⟩ := List.forall_mem_cons.1 hsole
    have hway := ih hsole
    refine List.cons_subset.2 ⟨?_, hway⟩
    -- the place is entered, and there is but one way to enter it
    have hentered : place ∈ [] ∨ place ∈ found.map (·.2) := by
      cases way with
      | nil => exact h.pending_entered hmem hdir
      | cons e way => exact h.below_entered (hway List.mem_cons_self) hmem hdir
    obtain ⟨e, he, hplace⟩ := List.mem_map.1 (hentered.resolve_left List.not_mem_nil)
    obtain ⟨way', -, hroute⟩ := h.route_of_mem he
    rw [← hlast e way' hroute hplace]
    exact he

/-- **A route that is always listed first is followed.** -/
theorem follows_first (h : w.Tour [w.root] [] found) {way : List (Path × Place)} (hway : w.Route way)
    (hfirst : w.First way) : way ⊆ found := by
  suffices hstraight : ∃ dirs later, found = way.reverse ++ later ∧
      w.Tour (w.onward way ++ dirs) (way.map (·.2)) later by
    obtain ⟨dirs, later, rfl, -⟩ := hstraight
    exact fun e he => List.mem_append_left _ (List.mem_reverse.2 he)
  -- the walk has nothing behind it but the route, and goes on to what is listed first
  induction hway with
  | start => exact ⟨[], found, rfl, by simpa [onward] using h⟩
  | @step way dir place _ _ hdir hnew ih =>
    cases hfirst with
    | step hway hhead =>
      obtain ⟨dirs, later, rfl, htour⟩ := ih hway
      obtain ⟨others, hothers⟩ := List.head?_eq_some_iff.1 hhead
      rw [hothers] at htour
      cases htour with
      | away hnone _ =>
        rw [hdir] at hnone
        cases hnone
      | again hsome hseen _ =>
        rw [hdir] at hsome
        cases hsome
        exact absurd hseen hnew
      | enter hsome _ hrest =>
        rw [hdir] at hsome
        cases hsome
        exact ⟨_, _, by simp, hrest⟩

end Tour

/-! ## The routes of a walk -/

/-- The directories that a walk enters, and what it takes there. -/
theorem exists_tour (w : Walk) :
    ∃ found, w.Tour [w.root] [] found ∧ ∀ file, file ∈ w.harvest.files ↔ ∃ e ∈ found, file ∈ w.taken e.1 e.2 := by
  obtain ⟨found, htour, hfiles⟩ := w.harvest_tour
  exact ⟨found, htour, fun file => by rw [hfiles.mem_iff, takenIn, List.mem_flatMap]⟩

theorem exists_route {file : Path} (h : file ∈ w.harvest.files) :
    ∃ e way, w.Route (e :: way) ∧ file ∈ w.taken e.1 e.2 := by
  obtain ⟨found, htour, hfiles⟩ := w.exists_tour
  obtain ⟨e, he, hfile⟩ := (hfiles file).1 h
  obtain ⟨way, -, hway⟩ := htour.route_of_mem he
  exact ⟨e, way, hway, hfile⟩

theorem mem_harvest_of_sole {e : Path × Place} {way : List (Path × Place)} (hway : w.Route (e :: way))
    (hsole : w.Sole (e :: way)) {file : Path} (hfile : file ∈ w.taken e.1 e.2) : file ∈ w.harvest.files := by
  obtain ⟨found, htour, hfiles⟩ := w.exists_tour
  exact (hfiles file).2 ⟨e, htour.follows_sole hway hsole List.mem_cons_self, hfile⟩

theorem mem_harvest_of_first {e : Path × Place} {way : List (Path × Place)} (hway : w.Route (e :: way))
    (hfirst : w.First (e :: way)) {file : Path} (hfile : file ∈ w.taken e.1 e.2) : file ∈ w.harvest.files := by
  obtain ⟨found, htour, hfiles⟩ := w.exists_tour
  exact (hfiles file).2 ⟨e, htour.follows_first hway hfirst List.mem_cons_self, hfile⟩

/-- **A route that is always listed first shuts out its rivals**: a file is not
found by a route that comes to one of its places in another way. -/
theorem rival_eq (ht : w.tree.Proper) {e e' : Path × Place} {way way' : List (Path × Place)}
    (hway : w.Route (e :: way)) {file : Path} (hfile : file ∈ w.taken e.1 e.2) (hfound : file ∈ w.harvest.files)
    (hway' : w.Route (e' :: way')) (hfirst : w.First (e' :: way')) {d : Path × Place} (hd : d ∈ e :: way)
    (hplace : e'.2 = d.2) : e' = d := by
  obtain ⟨found, htour, hfiles⟩ := w.exists_tour
  obtain ⟨f, hf, hfile'⟩ := (hfiles file).1 hfound
  obtain ⟨above, habove, hroute⟩ := htour.route_of_mem hf
  cases (Route.eq_of_taken rfl rfl ht hway hroute hfile hfile' rfl).1
  exact htour.path_unique (htour.follows_first hway' hfirst List.mem_cons_self) (List.cons_subset.2 ⟨hf, habove⟩ hd)
    hplace

end Walk
end DocScribe
