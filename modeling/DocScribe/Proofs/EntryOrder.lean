/-
The order in which directories list their entries.

A tree lists its entries in the order of its nodes, and `FileTree.Reorders` is
the same tree in another order. Every path leads where it led
(`FileTree.Reorders.resolve_eq`), so a walk can take the same routes; which of
them it follows is another matter. Any route is followed in some order
(`Walk.Route.first_favour`). So the order does not matter for what is found
exactly when every file can be come to in one way only, in one of the walks
(`Discovery.collect_reordered_iff`).
-/
import DocScribe.Catalog
import DocScribe.Proofs.PathOrder
import DocScribe.Proofs.Routes

namespace DocScribe

/-! ## The same tree in another order -/

/-- The same tree with its entries in another order. -/
structure FileTree.Reorders (t t' : FileTree) : Prop where
  here : t'.here = t.here
  nodes : t.nodes.Perm t'.nodes

namespace FileTree

variable {t t' : FileTree}

theorem lookup_perm {nodes nodes' : List (Place × Node)} (hperm : nodes.Perm nodes')
    (hdistinct : (nodes.map (·.1)).Nodup) (place : Place) : nodes'.lookup place = nodes.lookup place := by
  induction hperm with
  | nil => rfl
  | cons n _ ih =>
    rw [List.map_cons, List.nodup_cons] at hdistinct
    rw [List.lookup_cons, List.lookup_cons, ih hdistinct.2]
  | swap m n nodes =>
    obtain ⟨a, m⟩ := m
    obtain ⟨b, n⟩ := n
    have hne : b ≠ a := by
      rw [List.map_cons, List.nodup_cons] at hdistinct
      exact fun h => hdistinct.1 (by simp [h])
    simp only [List.lookup_cons]
    by_cases ha : place = a
    · have hb : (a == b) = false := by simpa using hne.symm
      simp [ha, hb]
    · have ha' : (place == a) = false := by simpa using ha
      simp [ha']
  | trans h₁ _ ih₁ ih₂ => rw [ih₂ ((h₁.map _).nodup_iff.1 hdistinct), ih₁ hdistinct]

theorem step_congr (h : ∀ place, t'.node? place = t.node? place) {jump jump' : Place → List Text → Destination}
    (hjump : ∀ place names, jump' place names = jump place names) (place : Place) (names : List Text) :
    t'.step jump' place names = t.step jump place names := by
  induction names generalizing place with
  | nil => rfl
  | cons name rest ih => simp only [step, h, hjump, ih]

theorem walk_congr (h : ∀ place, t'.node? place = t.node? place) (links : Nat) (place : Place) (names : List Text) :
    t'.walk links place names = t.walk links place names := by
  induction links generalizing place names with
  | zero => exact step_congr h (fun _ _ => rfl) place names
  | succ links ih => exact step_congr h ih place names

namespace Reorders

theorem refl (t : FileTree) : t.Reorders t := ⟨rfl, .refl _⟩

theorem proper (h : t.Reorders t') (ht : t.Proper) : t'.Proper where
  distinct := (h.nodes.map _).nodup_iff.1 ht.distinct
  named n hn := ht.named n (h.nodes.mem_iff.2 hn)

theorem node?_eq (h : t.Reorders t') (ht : t.Proper) (place : Place) : t'.node? place = t.node? place := by
  rw [node?, node?, lookup_perm h.nodes ht.distinct]

/-- **Every path leads where it led.** -/
theorem resolve_eq (h : t.Reorders t') (ht : t.Proper) : t'.resolve = t.resolve := by
  funext p
  simp only [resolve, h.here, walk_congr (h.node?_eq ht)]

theorem directory?_eq (h : t.Reorders t') (ht : t.Proper) : t'.directory? = t.directory? := by
  funext p
  rw [directory?, directory?, h.resolve_eq ht]

theorem isDirectory_eq (h : t.Reorders t') (ht : t.Proper) : t'.isDirectory = t.isDirectory := by
  funext p
  rw [isDirectory, isDirectory, h.directory?_eq ht]

theorem isFile_eq (h : t.Reorders t') (ht : t.Proper) : t'.isFile = t.isFile := by
  funext p
  rw [isFile, isFile, h.resolve_eq ht]

theorem isThere_eq (h : t.Reorders t') (ht : t.Proper) : t'.isThere = t.isThere := by
  funext p
  rw [isThere, isThere, h.isDirectory_eq ht, h.isFile_eq ht]

theorem content_eq (h : t.Reorders t') (ht : t.Proper) : t'.content = t.content := by
  funext p
  rw [content, content, h.resolve_eq ht]

theorem load_eq (h : t.Reorders t') (ht : t.Proper) (root : Path) :
    IgnoreRules.load t' root = IgnoreRules.load t root := by
  rw [IgnoreRules.load, IgnoreRules.load, h.isThere_eq ht, h.content_eq ht]

theorem entries_perm (h : t.Reorders t') (place : Place) : (t.entries place).Perm (t'.entries place) :=
  h.nodes.filterMap _

end Reorders
end FileTree

/-! ## The walk of the same tree -/

namespace Walk

/-- The same walk in another tree. -/
def inTree (w : Walk) (t : FileTree) : Walk := { w with tree := t }

section reordered
variable {w : Walk} {t : FileTree} (ht : w.tree.Proper) (h : w.tree.Reorders t)
include ht h

theorem opens_inTree : (w.inTree t).opens = w.opens := by
  funext path
  simp only [opens, isProject, inTree, h.isDirectory_eq ht, h.isFile_eq ht]
  rfl

theorem gathers_inTree : (w.inTree t).gathers = w.gathers := by
  funext path
  simp only [gathers, inTree, h.isDirectory_eq ht]
  rfl

theorem mem_below_inTree {dir path : Path} {place : Place} :
    path ∈ (w.inTree t).below dir place ↔ path ∈ w.below dir place := by
  rw [mem_below, mem_below, opens_inTree ht h]
  simp only [inTree, (h.entries_perm place).mem_iff]

theorem mem_taken_inTree {dir path : Path} {place : Place} :
    path ∈ (w.inTree t).taken dir place ↔ path ∈ w.taken dir place := by
  rw [mem_taken, mem_taken, gathers_inTree ht h]
  simp only [inTree, (h.entries_perm place).mem_iff]

theorem mem_onward_inTree {way : List (Path × Place)} {dir : Path} :
    dir ∈ (w.inTree t).onward way ↔ dir ∈ w.onward way := by
  cases way with
  | nil => rfl
  | cons e way => exact mem_below_inTree ht h

/-- **A walk can take the same routes in every order.** -/
theorem route_inTree {way : List (Path × Place)} : (w.inTree t).Route way ↔ w.Route way := by
  constructor
  · intro hroute
    induction hroute with
    | start => exact .start
    | step _ hmem hdir hnew ih =>
      exact .step ih ((mem_onward_inTree ht h).1 hmem) (by rwa [← h.directory?_eq ht]) hnew
  · intro hroute
    induction hroute with
    | start => exact .start
    | step _ hmem hdir hnew ih =>
      exact .step ih ((mem_onward_inTree ht h).2 hmem) ((congrFun (h.directory?_eq ht) _).trans hdir) hnew

theorem sole_inTree {way : List (Path × Place)} : (w.inTree t).Sole way ↔ w.Sole way := by
  simp only [Sole, route_inTree ht h]

end reordered
end Walk

/-! ## A route that is listed first -/

/-- A tree with the nodes at some places before all others. -/
def FileTree.favour (t : FileTree) (places : List Place) : FileTree :=
  { t with
    nodes := (t.nodes.filter fun n => places.contains n.1) ++ t.nodes.filter fun n => !places.contains n.1 }

theorem FileTree.reorders_favour (t : FileTree) (places : List Place) : t.Reorders (t.favour places) :=
  ⟨rfl, (List.filter_append_perm _ _).symm⟩

/-- A name that is favoured in a directory, and no other, is listed first. -/
theorem FileTree.head?_entries_favour {t : FileTree} {places : List Place} (hplaces : (places.map List.dropLast).Nodup)
    {place : Place} {name : Text} (hmem : place ++ [name] ∈ places) (hname : name ∈ t.entries place) :
    ((t.favour places).entries place).head? = some name := by
  let favoured : FileTree := { t with nodes := t.nodes.filter fun n => places.contains n.1 }
  have hfirst : name ∈ favoured.entries place := by
    obtain ⟨n, hn, hplace⟩ := mem_entries.1 hname
    exact mem_entries.2 ⟨n, List.mem_filter.2 ⟨hn, by simpa [hplace] using hmem⟩, hplace⟩
  have honly : ∀ other ∈ favoured.entries place, other = name := by
    intro other hother
    obtain ⟨n, hn, hplace⟩ := mem_entries.1 hother
    have hfav : place ++ [other] ∈ places := by
      rw [← hplace]
      simpa using (List.mem_filter.1 hn).2
    have hsame := List.inj_on_of_nodup_map hplaces hfav hmem (by simp)
    simpa using hsame
  have hentries : (t.favour places).entries place = favoured.entries place ++
      FileTree.entries { t with nodes := t.nodes.filter fun n => !places.contains n.1 } place :=
    List.filterMap_append
  rw [hentries]
  obtain ⟨first, rest, hsome⟩ := List.exists_cons_of_ne_nil (List.ne_nil_of_mem hfirst)
  rw [hsome, honly first (hsome ▸ List.mem_cons_self)]
  rfl

namespace Walk

variable {w : Walk} {way : List (Path × Place)}

/-- The places of the entries by which a way goes down. -/
def steps : List (Path × Place) → List Place
  | e :: d :: way => (d.2 ++ e.1.fileName?.toList) :: steps (d :: way)
  | _ => []

theorem Route.steps_cons (ht : w.tree.Proper) {e d : Path × Place} (h : w.Route (e :: d :: way)) :
    ∃ name ∈ w.tree.entries d.2, d.1.join ⟨name⟩ = e.1 ∧
      steps (e :: d :: way) = (d.2 ++ [name]) :: steps (d :: way) := by
  obtain ⟨name, hname, hjoin⟩ := h.exists_name
  have hlast : e.1.fileName? = some name := by
    rw [← hjoin, Path.fileName?,
      Path.components_join_name (FileTree.text_ne_nil h.tail.directory) (ht.isName hname), List.getLast?_concat]
  exact ⟨name, hname, hjoin, by rw [steps, hlast]; rfl⟩

theorem Route.nodup (h : w.Route way) : (way.map (·.2)).Nodup := by
  induction h with
  | start => exact List.nodup_nil
  | step _ _ _ hnew ih => exact List.nodup_cons.2 ⟨hnew, ih⟩

theorem Route.steps_dropLast (ht : w.tree.Proper) (h : w.Route way) :
    (steps way).map List.dropLast = way.tail.map (·.2) := by
  induction h with
  | start => rfl
  | @step way dir place hway hmem hdir hnew ih =>
    cases way with
    | nil => rfl
    | cons d way =>
      obtain ⟨name, -, -, hsteps⟩ := Route.steps_cons ht (.step hway hmem hdir hnew)
      rw [hsteps, List.map_cons, ih, List.dropLast_concat]
      rfl

theorem Route.first_of_steps (ht : w.tree.Proper) {places : List Place} (hplaces : (places.map List.dropLast).Nodup)
    (h : w.Route way) (hsteps : steps way ⊆ places) : (w.inTree (w.tree.favour places)).First way := by
  induction h with
  | start => exact .start
  | @step way dir place hway hmem hdir hnew ih =>
    cases way with
    | nil => exact .step .start (by rw [List.mem_singleton.1 hmem]; rfl)
    | cons d way =>
      obtain ⟨name, hname, hjoin, hcons⟩ := Route.steps_cons ht (.step hway hmem hdir hnew)
      rw [hcons, List.cons_subset] at hsteps
      refine .step (ih hsteps.2) ?_
      -- the step is the first entry of its directory, and leads on
      obtain ⟨rest, hrest⟩ := List.head?_eq_some_iff.1 (FileTree.head?_entries_favour hplaces hsteps.1 hname)
      have hopens : (w.inTree (w.tree.favour places)).opens dir = true := by
        rw [opens_inTree ht (w.tree.reorders_favour places)]
        exact (mem_below.1 hmem).2
      rw [onward, Walk.below, listed, inTree, hrest, List.map_cons, hjoin]
      exact List.head?_eq_some_iff.2 ⟨_, List.filter_cons_of_pos hopens⟩

/-- **Any route is always listed first in some order**, which does not depend on
what else a walk passes over. -/
theorem Route.first_favour (ht : w.tree.Proper) (h : w.Route way) :
    (w.inTree (w.tree.favour (steps way))).First way := by
  have hnodup : ((steps way).map List.dropLast).Nodup := by
    rw [h.steps_dropLast ht, List.map_tail]
    exact h.nodup.tail
  exact h.first_of_steps ht hnodup (List.Subset.refl _)

/-- A walk that passes over less can take more routes. -/
theorem Route.mono {v : Walk} (htree : v.tree = w.tree) (hroot : v.root = w.root)
    (hopens : ∀ path, w.opens path = true → v.opens path = true) (h : w.Route way) : v.Route way := by
  induction h with
  | start => exact .start
  | @step way dir place _ hmem hdir hnew ih =>
    refine .step ih ?_ (by rwa [htree]) hnew
    cases way with
    | nil =>
      rw [onward, hroot]
      exact hmem
    | cons e way =>
      obtain ⟨hlisted, hopen⟩ := mem_below.1 hmem
      exact mem_below.2 ⟨by rwa [htree], hopens dir hopen⟩

end Walk

/-! ## The walks of a project -/

namespace Discovery

open Walk

variable {t t' : FileTree} {root : Path} {s : Settings} {supports : Path → Bool} {ws : List Walk}

/-- The walks by which the files of a project are found, if its rules can be
read. -/
def walks (t : FileTree) (root : Path) (s : Settings) (supports : Path → Bool) : Except Failure (List Walk) := do
  let exclude ← excludeRules root s.exclude
  let globs ← includeGlobs s.includes
  let found : Walk := { tree := t, root, exclude, pass := .supported (hiddenRules t root s).1 supports }
  return found :: if globs.isEmpty then [] else [{ found with pass := .included globs }]

/-- What some walks find, in the order of paths. -/
def gathered (ws : List Walk) : List Path := ordered (ws.flatMap fun w => w.harvest.files)

/-- **The files of a project are what its walks find.** -/
theorem collect_eq (hlist : s.fileList = []) :
    (collect t root s supports).1 = (walks t root s supports).map gathered := by
  rw [collect, hlist, walks]
  cases excludeRules root s.exclude with
  | error e => rfl
  | ok exclude =>
    cases includeGlobs s.includes with
    | error e => rfl
    | ok globs => cases globs <;> simp [gathered, ordered, bind, Except.bind, pure, Except.pure, Except.map]

theorem walks_inTree (ht : t.Proper) (h : t.Reorders t') :
    walks t' root s supports = (walks t root s supports).map (List.map (inTree · t')) := by
  have hhidden : hiddenRules t' root s = hiddenRules t root s := by
    rw [hiddenRules, hiddenRules, h.load_eq ht]
  rw [walks, walks, hhidden]
  cases excludeRules root s.exclude with
  | error e => rfl
  | ok exclude =>
    cases includeGlobs s.includes with
    | error e => rfl
    | ok globs => cases globs <;> rfl

/-- Later walks can take the routes of those before them. -/
theorem of_walks (h : walks t root s supports = .ok ws) :
    (∀ w ∈ ws, w.tree = t ∧ w.root = root) ∧ ws.Pairwise fun w v => ∀ way, w.Route way → v.Route way := by
  rw [walks] at h
  cases hexclude : excludeRules root s.exclude with
  | error e =>
    rw [hexclude] at h
    cases h
  | ok exclude =>
    cases hglobs : includeGlobs s.includes with
    | error e =>
      rw [hexclude, hglobs] at h
      cases h
    | ok globs =>
      rw [hexclude, hglobs] at h
      cases h
      cases globs with
      | nil => exact ⟨by simp, List.pairwise_singleton _ _⟩
      | cons g globs =>
        refine ⟨by simp, List.pairwise_pair.2 fun way hway => ?_⟩
        refine Route.mono ?_ ?_ (fun path hopens => ?_) hway
        · rfl
        · rfl
        · simp only [opens, skips, Bool.and_eq_true, Bool.not_eq_true', Bool.or_eq_false_iff] at hopens ⊢
          exact ⟨⟨hopens.1.1, hopens.1.2.1, trivial⟩, hopens.2⟩

theorem mem_gathered (ht : t.Proper) (hws : ∀ w ∈ ws, w.tree = t ∧ w.root = root) {file : Path} :
    file ∈ gathered ws ↔ ∃ w ∈ ws, file ∈ w.harvest.files := by
  rw [gathered, mem_ordered, List.mem_flatMap]
  intro p hp q hq hsame
  obtain ⟨w, hw, hp⟩ := List.mem_flatMap.1 hp
  obtain ⟨v, hv, hq⟩ := List.mem_flatMap.1 hq
  obtain ⟨e, way, hway, hp⟩ := exists_route hp
  obtain ⟨e', way', hway', hq⟩ := exists_route hq
  have htree : v.tree = w.tree := (hws v hv).1.trans (hws w hw).1.symm
  have hroot : v.root = w.root := (hws v hv).2.trans (hws w hw).2.symm
  exact (Route.eq_of_taken htree hroot ((hws w hw).1 ▸ ht) hway hway' hp hq hsame).2

/-- One of some walks finds a file in a tree. -/
def Finds (ws : List Walk) (t : FileTree) (file : Path) : Prop := ∃ w ∈ ws, file ∈ (w.inTree t).harvest.files

theorem mem_gathered_inTree (ht : t.Proper) (hws : ∀ w ∈ ws, w.tree = t ∧ w.root = root) (h : t.Reorders t')
    {file : Path} : file ∈ gathered (ws.map (inTree · t')) ↔ Finds ws t' file := by
  have hws' : ∀ v ∈ ws.map (inTree · t'), v.tree = t' ∧ v.root = root := by
    intro v hv
    obtain ⟨w, hw, rfl⟩ := List.mem_map.1 hv
    exact ⟨rfl, (hws w hw).2⟩
  rw [mem_gathered (h.proper ht) hws', Finds]
  simp

/-- Two orders give the same if the same files are found in them. -/
theorem collect_eq_iff (ht : t.Proper) (hlist : s.fileList = []) (hwalks : walks t root s supports = .ok ws)
    {t₁ t₂ : FileTree} (h₁ : t.Reorders t₁) (h₂ : t.Reorders t₂) :
    (collect t₁ root s supports).1 = (collect t₂ root s supports).1 ↔ ∀ file, Finds ws t₁ file ↔ Finds ws t₂ file := by
  have hws := (of_walks hwalks).1
  rw [collect_eq hlist, collect_eq hlist, walks_inTree ht h₁, walks_inTree ht h₂, hwalks]
  simp only [Except.map, Except.ok.injEq, ← mem_gathered_inTree ht hws h₁, ← mem_gathered_inTree ht hws h₂]
  exact ⟨fun hsame file => by rw [hsame], ordered_congr⟩

/-- Every file that one of some walks can come to is taken by a walk that can
come to it in one way only: no place on the route can be reached by another. -/
def Steady (ws : List Walk) : Prop :=
  ∀ w ∈ ws, ∀ e way, w.Route (e :: way) → ∀ file ∈ w.taken e.1 e.2,
    ∃ v ∈ ws, v.Route (e :: way) ∧ file ∈ v.taken e.1 e.2 ∧ v.Sole (e :: way)

/-- With steady walks, what is found is what can be come to. -/
theorem Steady.finds_iff (hsteady : Steady ws) (ht : t.Proper) (hws : ∀ w ∈ ws, w.tree = t) (h : t.Reorders t')
    (file : Path) : Finds ws t' file ↔ ∃ w ∈ ws, ∃ e way, w.Route (e :: way) ∧ file ∈ w.taken e.1 e.2 := by
  constructor
  · rintro ⟨w, hw, hfile⟩
    have htree := hws w hw
    subst htree
    obtain ⟨e, way, hway, hfile⟩ := exists_route hfile
    exact ⟨w, hw, e, way, (route_inTree ht h).1 hway, (mem_taken_inTree ht h).1 hfile⟩
  · rintro ⟨w, hw, e, way, hway, hfile⟩
    obtain ⟨v, hv, hroute, htaken, hsole⟩ := hsteady w hw e way hway file hfile
    have htree := hws v hv
    subst htree
    exact ⟨v, hv, mem_harvest_of_sole ((route_inTree ht h).2 hroute) ((sole_inTree ht h).2 hsole)
      ((mem_taken_inTree ht h).2 htaken)⟩

/-- In some order a file is found by a route of choice. -/
theorem finds_favour (ht : t.Proper) {w : Walk} (hw : w ∈ ws) (htree : w.tree = t) {e : Path × Place}
    {way : List (Path × Place)} (hway : w.Route (e :: way)) {file : Path} (hfile : file ∈ w.taken e.1 e.2) :
    Finds ws (t.favour (steps (e :: way))) file := by
  subst htree
  have h := w.tree.reorders_favour (steps (e :: way))
  exact ⟨w, hw, mem_harvest_of_first ((route_inTree ht h).2 hway) (hway.first_favour ht)
    ((mem_taken_inTree ht h).2 hfile)⟩

/-- A file that is found in every order is taken by a walk that can come to it in
one way only: of the walks that take it, the first. -/
theorem exists_sole (ht : t.Proper) (hws : ∀ w ∈ ws, w.tree = t ∧ w.root = root)
    (hmono : ws.Pairwise fun w v => ∀ way, w.Route way → v.Route way) {file : Path}
    (hfinds : ∀ t', t.Reorders t' → Finds ws t' file) {w : Walk} (hw : w ∈ ws) {e : Path × Place}
    {way : List (Path × Place)} (hway : w.Route (e :: way)) (hfile : file ∈ w.taken e.1 e.2) :
    ∃ v ∈ ws, v.Route (e :: way) ∧ file ∈ v.taken e.1 e.2 ∧ v.Sole (e :: way) := by
  classical
  obtain ⟨v, hfirst⟩ : ∃ v, ws.find? (fun v => v.Route (e :: way) ∧ file ∈ v.taken e.1 e.2) = some v :=
    Option.isSome_iff_exists.1 (List.find?_isSome.2 ⟨w, hw, by simp [hway, hfile]⟩)
  have hv : v ∈ ws := List.mem_of_find?_eq_some hfirst
  obtain ⟨htakes, before, after, hsplit, hbefore⟩ := List.find?_eq_some_iff_append.1 hfirst
  obtain ⟨hroute, htaken⟩ : v.Route (e :: way) ∧ file ∈ v.taken e.1 e.2 := by simpa using htakes
  refine ⟨v, hv, hroute, htaken, fun d hd e' way' hrival hplace => ?_⟩
  -- in the order that favours the rival, some walk comes to the file all the same
  obtain ⟨u, hu, hfound⟩ := hfinds _ (t.reorders_favour (steps (e' :: way')))
  have htree : u.tree = v.tree := (hws u hu).1.trans (hws v hv).1.symm
  have hroot : u.root = v.root := (hws u hu).2.trans (hws v hv).2.symm
  obtain rfl : u.tree = t := (hws u hu).1
  have h := u.tree.reorders_favour (steps (e' :: way'))
  obtain ⟨e₂, way₂, hway₂, hfile₂⟩ := exists_route hfound
  rw [route_inTree ht h] at hway₂
  rw [mem_taken_inTree ht h] at hfile₂
  cases (Route.eq_of_taken htree hroot (htree ▸ ht) hroute hway₂ htaken hfile₂ rfl).1
  -- that walk is not before the first, so it can take the rival, and does
  have hrival' : u.Route (e' :: way') := by
    rw [hsplit, List.pairwise_append, List.pairwise_cons] at hmono
    rw [hsplit, List.mem_append, List.mem_cons] at hu
    rcases hu with hu | rfl | hu
    · have hnot := hbefore u hu
      simp [hway₂, hfile₂] at hnot
    · exact hrival
    · exact hmono.2.1.1 u hu _ hrival
  exact rival_eq (h.proper ht) ((route_inTree ht h).2 hway₂) ((mem_taken_inTree ht h).2 hfile₂) hfound
    ((route_inTree ht h).2 hrival') (hrival'.first_favour ht) hd hplace

/-- **The order of entries does not matter exactly when the walks are steady.** -/
theorem collect_reordered_iff (ht : t.Proper) (hlist : s.fileList = []) (root : Path) (supports : Path → Bool) :
    (∀ t', t.Reorders t' → (collect t' root s supports).1 = (collect t root s supports).1) ↔
      ∀ ws, walks t root s supports = .ok ws → Steady ws := by
  constructor
  · intro hsame ws hwalks w hw e way hway file hfile
    obtain ⟨hws, hmono⟩ := of_walks hwalks
    have hfinds := finds_favour ht hw (hws w hw).1 hway hfile
    refine exists_sole ht hws hmono (fun t' h => ?_) hw hway hfile
    have hfavour := t.reorders_favour (steps (e :: way))
    exact ((collect_eq_iff ht hlist hwalks hfavour h).1 ((hsame _ hfavour).trans (hsame t' h).symm) file).1 hfinds
  · intro hsteady t' h
    cases hwalks : walks t root s supports with
    | error e => rw [collect_eq hlist, collect_eq hlist, walks_inTree ht h, hwalks, Except.map, Except.map]
    | ok ws =>
      have hws := (of_walks hwalks).1
      refine (collect_eq_iff ht hlist hwalks h (.refl t)).2 fun file => ?_
      rw [(hsteady ws hwalks).finds_iff ht (fun w hw => (hws w hw).1) h,
        (hsteady ws hwalks).finds_iff ht (fun w hw => (hws w hw).1) (.refl t)]

end Discovery

namespace LinkUpward

open Discovery Walk

/-- A link inside a directory leads back to the directory above it. -/
def tree : FileTree :=
  { nodes := [(["src"], .dir), (["src", "up"], .link ⟨".."⟩), (["src", "x.py"], .file (.text ""))] }

def root : Path := ⟨"."⟩

def supports : Path → Bool := (Catalog.ofFormats [.python]).supports

def walk : Walk := { tree, root, exclude := .empty root, pass := .supported (hiddenRules tree root {}).1 supports }

theorem proper : tree.Proper := ⟨by decide, by decide⟩

theorem walks_tree : walks tree root {} supports = .ok [walk] := rfl

def routes : List (List (Path × Place)) := [[], [(⟨"."⟩, [])], [(⟨"./src"⟩, ["src"]), (⟨"."⟩, [])]]

set_option maxRecDepth 100000 in
theorem routes_closed : ∀ way ∈ routes, ∀ dir ∈ walk.onward way, ∀ place ∈ tree.directory? dir,
    place ∉ way.map (·.2) → (dir, place) :: way ∈ routes := by decide

theorem steady : Steady [walk] := by
  have hroutes {way : List (Path × Place)} (hway : walk.Route way) : way ∈ routes :=
    hway.mem_of_closed (by decide) routes_closed
  have honly : ∀ d ∈ routes.flatten, ∀ e ∈ routes.flatten, e.2 = d.2 → e = d := by decide
  intro w hw e way hway file hfile
  obtain rfl := List.mem_singleton.1 hw
  refine ⟨walk, hw, hway, hfile, fun d hd e' way' hway' hplace => ?_⟩
  exact honly d (List.mem_flatten.2 ⟨_, hroutes hway, hd⟩) e'
    (List.mem_flatten.2 ⟨_, hroutes hway', List.mem_cons_self⟩) hplace

set_option maxRecDepth 100000 in
theorem collected : (collect tree root {} supports).1.toOption = some [⟨"./src/x.py"⟩] := by decide +kernel

theorem collect_reordered_iff_upward :
    tree.Proper ∧ ({} : Settings).fileList = [] ∧
      ∀ t', tree.Reorders t' → (collect t' root {} supports).1.toOption = some [⟨"./src/x.py"⟩] := by
  refine ⟨proper, rfl, fun t' h => ?_⟩
  have hsteady : ∀ ws, walks tree root {} supports = .ok ws → Steady ws := by
    intro ws hws
    rw [walks_tree] at hws
    cases hws
    exact steady
  rw [(collect_reordered_iff proper rfl root supports).2 hsteady t' h, collected]

end LinkUpward

namespace TwoNames

open Discovery LinkUpward

def nodes : List (Place × Node) :=
  [([".h"], .dir), ([".h", "x.py"], .file (.text "")), (["m"], .link ⟨".h"⟩), (["n"], .link ⟨".h"⟩)]

/-- Two links lead to one directory. -/
def tree : FileTree := { nodes }

def turned : FileTree := { nodes := nodes.reverse }

def settings : Settings := { exclude := ["m/x.py"] }

set_option maxRecDepth 100000 in
/-- The file below the second name is found only when that name is listed
first. -/
theorem order_matters :
    tree.Proper ∧ tree.Reorders turned ∧ settings.fileList = [] ∧
      (collect tree root settings supports).1.toOption = some [] ∧
      (collect turned root settings supports).1.toOption = some [⟨"./n/x.py"⟩] := by
  have hproper : tree.Proper := ⟨by decide, by decide⟩
  have hreorders : tree.Reorders turned := ⟨rfl, nodes.reverse_perm.symm⟩
  have hcollected : (collect tree root settings supports).1.toOption = some [] ∧
      (collect turned root settings supports).1.toOption = some [⟨"./n/x.py"⟩] := by decide +kernel
  exact ⟨hproper, hreorders, rfl, hcollected⟩

end TwoNames
end DocScribe
