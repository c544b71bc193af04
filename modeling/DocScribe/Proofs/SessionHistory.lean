/-
What a session remembers of what was done to it.

A session is a list of candidates with an index beside it. After any steps
(`Session.Step`) both are told by the steps since the last clear alone: the
names are in the order in which they first came in (`Session.namesOf`), and
under each name stands the candidate that came in last, with the last block
that was attached to it since (`Session.Stands`). `Session.Recalls` says this
of a session and survives every step; `Session.run_recalls` is what a whole run
comes to.
-/
import DocScribe.Proofs.ChangeFilter

namespace DocScribe
namespace Session

/-! ## Steps -/

/-- Something that is done to a session. A block is attached to the candidate
at a place; where there is none, nothing happens. -/
inductive Step where
  | insert (c : Candidate)
  | attach (place : Nat) (b : Block)
  | clear

def perform (s : Session) : Step → Session
  | .insert c => s.insert c
  | .attach place b => s.attach place b
  | .clear => s.clear

def run (s : Session) (steps : List Step) : Session := steps.foldl perform s

namespace Step

def isClear : Step → Bool
  | .clear => true
  | _ => false

/-- The name under which a step puts a candidate in. -/
def name? : Step → Option Text
  | .insert c => some c.name
  | _ => none

/-- The block that a step attaches at a place. -/
def blockAt? (place : Nat) : Step → Option Block
  | .attach i b => if i = place then some b else none
  | _ => none

end Step

/-! ## What the steps tell -/

/-- The steps since the last clear. -/
def recent (steps : List Step) : List Step := (steps.reverse.takeWhile fun x => !x.isClear).reverse

/-- The names that came in since the last clear, in the order in which they
first did. -/
def namesOf (steps : List Step) : List Text := ((recent steps).filterMap Step.name?).eraseDups

/-- The last block that was attached at a place. -/
def lastBlock? (place : Nat) (steps : List Step) : Option Block :=
  (steps.filterMap (Step.blockAt? place)).getLast?

/-- A candidate as it stands under a name: the last that came in under it since
the last clear, with the last block attached at its place after that. -/
def Stands (steps : List Step) (name : Text) (c : Candidate) : Prop :=
  ∃ before given later, recent steps = before ++ .insert given :: later ∧ given.name = name ∧
    (∀ d, Step.insert d ∈ later → d.name ≠ name) ∧
    c = { given with block := (lastBlock? ((namesOf steps).idxOf name) later).or given.block }

theorem lastBlock?_concat (place : Nat) (steps : List Step) (x : Step) :
    lastBlock? place (steps ++ [x]) = (x.blockAt? place).or (lastBlock? place steps) := by
  rw [lastBlock?, List.filterMap_append]
  cases h : x.blockAt? place with
  | none => simp [h, lastBlock?]
  | some b => simp [h]

section steps
variable {steps : List Step} {c : Candidate} {name : Text}

theorem recent_concat_clear (steps : List Step) : recent (steps ++ [.clear]) = [] := by
  simp [recent, Step.isClear]

theorem recent_concat {x : Step} (h : x.isClear = false) : recent (steps ++ [x]) = recent steps ++ [x] := by
  simp [recent, h]

theorem eraseDups_concat (l : List Text) (name : Text) :
    (l ++ [name]).eraseDups = if name ∈ l.eraseDups then l.eraseDups else l.eraseDups ++ [name] := by
  have hone : [name].eraseDups = [name] := rfl
  rw [List.eraseDups_append]
  by_cases h : name ∈ l <;> simp [List.removeAll, h, hone]

theorem namesOf_insert (steps : List Step) (c : Candidate) :
    namesOf (steps ++ [.insert c]) =
      if c.name ∈ namesOf steps then namesOf steps else namesOf steps ++ [c.name] := by
  rw [namesOf, recent_concat rfl, List.filterMap_append]
  exact eraseDups_concat _ _

theorem namesOf_attach (steps : List Step) (place : Nat) (b : Block) :
    namesOf (steps ++ [.attach place b]) = namesOf steps := by
  rw [namesOf, recent_concat rfl, List.filterMap_append, List.filterMap_cons_none rfl, List.filterMap_nil,
    List.append_nil]
  rfl

/-- A name keeps its place. -/
theorem idxOf_namesOf_insert (h : name ∈ namesOf steps) (c : Candidate) :
    (namesOf (steps ++ [.insert c])).idxOf name = (namesOf steps).idxOf name := by
  rw [namesOf_insert]
  split
  · rfl
  · exact List.idxOf_append_of_mem h

theorem Stands.mem_namesOf (h : Stands steps name c) : name ∈ namesOf steps := by
  obtain ⟨before, given, later, hsplit, rfl, -, -⟩ := h
  rw [namesOf, List.mem_eraseDups, hsplit]
  simp [Step.name?]

theorem Stands.name_eq (h : Stands steps name c) : c.name = name := by
  obtain ⟨before, given, later, -, rfl, -, rfl⟩ := h
  rfl

theorem not_stands_clear : ¬Stands (steps ++ [.clear]) name c := by
  rintro ⟨before, given, later, hsplit, -⟩
  simp [recent_concat_clear] at hsplit

/-- The last step of a history either is the insertion in question or comes
after it. -/
theorem concat_eq_iff {x y : Step} {before later : List Step} :
    steps ++ [x] = before ++ y :: later ↔
      (later = [] ∧ steps = before ∧ x = y) ∨ ∃ rest, later = rest ++ [x] ∧ steps = before ++ y :: rest := by
  constructor
  · intro h
    rcases List.eq_nil_or_concat later with rfl | ⟨rest, z, rfl⟩
    · obtain ⟨hsteps, hlast⟩ := List.append_inj' h rfl
      exact .inl ⟨rfl, hsteps, List.singleton_inj.1 hlast⟩
    · have h : steps ++ [x] = (before ++ y :: rest) ++ [z] := by simpa using h
      obtain ⟨hsteps, hlast⟩ := List.append_inj' h rfl
      cases List.singleton_inj.1 hlast
      exact .inr ⟨rest, by simp, hsteps⟩
  · rintro (⟨rfl, rfl, rfl⟩ | ⟨rest, rfl, rfl⟩) <;> simp

/-- A candidate that comes in stands as it is, and those under other names stand
as they did. -/
theorem stands_insert {d : Candidate} :
    Stands (steps ++ [.insert d]) name c ↔ d.name = name ∧ c = d ∨ d.name ≠ name ∧ Stands steps name c := by
  constructor
  · rintro ⟨before, given, later, hsplit, hname, hlater, hc⟩
    rw [recent_concat rfl] at hsplit
    rcases concat_eq_iff.1 hsplit with ⟨rfl, -, heq⟩ | ⟨rest, rfl, hrest⟩
    · cases heq
      exact .inl ⟨hname, hc⟩
    · have hne : d.name ≠ name := hlater d (by simp)
      have hmem : name ∈ namesOf steps := by
        rw [namesOf, List.mem_eraseDups, hrest]
        simp [Step.name?, hname]
      refine .inr ⟨hne, before, given, rest, hrest, hname, fun e he => hlater e (by simp [he]), ?_⟩
      rw [hc, idxOf_namesOf_insert hmem, lastBlock?_concat]
      rfl
  · rintro (⟨rfl, rfl⟩ | ⟨hne, hstands⟩)
    · exact ⟨recent steps, c, [], recent_concat rfl, rfl, by simp, rfl⟩
    · have hmem := hstands.mem_namesOf
      obtain ⟨before, given, later, hsplit, hname, hlater, rfl⟩ := hstands
      refine ⟨before, given, later ++ [.insert d], ?_, hname, ?_, ?_⟩
      · rw [recent_concat rfl, hsplit]
        simp
      · intro e he
        rcases List.mem_append.1 he with he | he
        · exact hlater e he
        · cases List.mem_singleton.1 he
          exact hne
      · rw [idxOf_namesOf_insert hmem, lastBlock?_concat]
        rfl

/-- A block goes to what stands at its place. -/
theorem stands_attach {place : Nat} {b : Block} :
    Stands (steps ++ [.attach place b]) name c ↔
      ∃ d, Stands steps name d ∧
        c = if (namesOf steps).idxOf name = place then { d with block := some b } else d := by
  constructor
  · rintro ⟨before, given, later, hsplit, hname, hlater, rfl⟩
    rw [recent_concat rfl] at hsplit
    rcases concat_eq_iff.1 hsplit with ⟨-, -, heq⟩ | ⟨rest, rfl, hrest⟩
    · cases heq
    · refine ⟨_, ⟨before, given, rest, hrest, hname, fun e he => hlater e (by simp [he]), rfl⟩, ?_⟩
      rw [namesOf_attach, lastBlock?_concat]
      simp only [Step.blockAt?, eq_comm (a := place)]
      split <;> rfl
  · rintro ⟨d, ⟨before, given, later, hsplit, hname, hlater, rfl⟩, rfl⟩
    refine ⟨before, given, later ++ [.attach place b], ?_, hname, ?_, ?_⟩
    · rw [recent_concat rfl, hsplit]
      simp
    · intro e he
      rcases List.mem_append.1 he with he | he
      · exact hlater e he
      · cases List.mem_singleton.1 he
    · rw [namesOf_attach, lastBlock?_concat]
      simp only [Step.blockAt?, eq_comm (a := place)]
      split <;> rfl

end steps

/-! ## Looking up and attaching -/

section sound
variable {s : Session} {c : Candidate} {name : Text}

theorem Sound.get?_eq_some_iff (h : s.Sound) : s.get? name = some c ↔ c ∈ s.candidates ∧ c.name = name := by
  unfold get?
  rw [h.index]
  constructor
  · intro hget
    obtain ⟨i, hlookup, hi⟩ := Option.bind_eq_some_iff.1 hget
    have hname := (lookup_zipIdx_some hlookup).2
    rw [names, Nat.sub_zero, List.getElem?_map, hi] at hname
    exact ⟨List.mem_of_getElem? hi, Option.some.inj hname⟩
  · rintro ⟨hc, rfl⟩
    cases hlookup : s.names.zipIdx.lookup c.name with
    | none => exact absurd (List.mem_map.2 ⟨c, hc, rfl⟩) (lookup_zipIdx_none hlookup)
    | some i =>
      have hname := (lookup_zipIdx_some hlookup).2
      rw [names, Nat.sub_zero, List.getElem?_map] at hname
      obtain ⟨d, hd, hsame⟩ := Option.map_eq_some_iff.1 hname
      rw [Option.bind_some, hd, List.inj_on_of_nodup_map h.nodup (List.mem_of_getElem? hd) hc hsame]

theorem Sound.get?_eq_none_iff (h : s.Sound) : s.get? name = none ↔ name ∉ s.names := by
  rw [Option.eq_none_iff_forall_ne_some]
  constructor
  · intro hnone hmem
    obtain ⟨c, hc, hname⟩ := List.mem_map.1 hmem
    exact hnone c (h.get?_eq_some_iff.2 ⟨hc, hname⟩)
  · intro hnot c hget
    obtain ⟨hc, hname⟩ := h.get?_eq_some_iff.1 hget
    exact hnot (List.mem_map.2 ⟨c, hc, hname⟩)

/-- The blocks are those of the candidates under the names. -/
theorem Sound.blocks_eq (h : s.Sound) : s.blocks = s.names.filterMap fun name => (s.get? name).bind (·.block) := by
  rw [names, List.filterMap_map]
  refine List.filterMap_congr fun c hc => ?_
  have hget : s.get? c.name = some c := h.get?_eq_some_iff.2 ⟨hc, rfl⟩
  rw [Function.comp_apply, hget, Option.bind_some]

theorem Sound.names_insert (h : s.Sound) (c : Candidate) :
    (s.insert c).names = if c.name ∈ s.names then s.names else s.names ++ [c.name] := by
  unfold Session.insert
  split
  · next i hi =>
    rw [h.index] at hi
    have hname : s.names[i]? = some c.name := by simpa using (lookup_zipIdx_some hi).2
    obtain ⟨hlt, hget⟩ := List.getElem?_eq_some_iff.1 hname
    rw [if_pos (List.mem_of_getElem? hname)]
    simp only [names, List.map_set, ← hget]
    exact List.set_getElem_self hlt
  · next hi =>
    rw [h.index] at hi
    rw [if_neg (lookup_zipIdx_none hi)]
    simp [names]

@[simp] theorem names_attach (s : Session) (place : Nat) (b : Block) : (s.attach place b).names = s.names := by
  refine List.ext_getElem? fun i => ?_
  simp only [names, attach, List.getElem?_map, List.getElem?_modify]
  cases s.candidates[i]? with
  | none => rfl
  | some c => by_cases h : place = i <;> simp [h]

theorem Sound.attach (h : s.Sound) (place : Nat) (b : Block) : (s.attach place b).Sound where
  index := by rw [names_attach]; exact h.index
  nodup := by rw [names_attach]; exact h.nodup

theorem Sound.mem_attach_iff (h : s.Sound) {place : Nat} {b : Block} :
    c ∈ (s.attach place b).candidates ↔
      ∃ d ∈ s.candidates, c = if s.names.idxOf d.name = place then { d with block := some b } else d := by
  have hplace : ∀ {i : Nat} {d : Candidate}, s.candidates[i]? = some d → s.names.idxOf d.name = i := by
    intro i d hd
    have hname : s.names[i]? = some d.name := by rw [names, List.getElem?_map, hd]; rfl
    obtain ⟨hlt, hname⟩ := List.getElem?_eq_some_iff.1 hname
    rw [← hname, h.nodup.idxOf_getElem i hlt]
  simp only [List.mem_iff_getElem?, Session.attach, List.getElem?_modify]
  constructor
  · rintro ⟨i, hi⟩
    obtain ⟨d, hd, rfl⟩ := Option.map_eq_some_iff.1 hi
    exact ⟨d, ⟨i, hd⟩, by simp only [hplace hd, eq_comm]⟩
  · rintro ⟨d, ⟨i, hd⟩, rfl⟩
    refine ⟨i, ?_⟩
    rw [hd, hplace hd]
    simp only [Option.map_eq_map, Option.map_some, eq_comm]

end sound

/-! ## A session and its history -/

/-- A session as its history tells it. -/
structure Recalls (s : Session) (steps : List Step) : Prop where
  sound : s.Sound
  names_eq : s.names = namesOf steps
  stands : ∀ c, c ∈ s.candidates ↔ Stands steps c.name c

theorem Recalls.empty (file : Path) (kind : Kind) : (Session.empty file kind).Recalls [] where
  sound := .empty file kind
  names_eq := rfl
  stands c := by simp [Session.empty, Stands, recent]

theorem Recalls.perform {s : Session} {steps : List Step} (h : s.Recalls steps) (x : Step) :
    (s.perform x).Recalls (steps ++ [x]) := by
  cases x with
  | insert d =>
    refine ⟨h.sound.insert d, ?_, fun c => ?_⟩
    · rw [namesOf_insert, ← h.names_eq]
      exact h.sound.names_insert d
    · rw [stands_insert, Session.perform, h.sound.mem_insert_iff, h.stands]
      constructor
      · rintro (rfl | ⟨hc, hne⟩)
        · exact .inl ⟨rfl, rfl⟩
        · exact .inr ⟨Ne.symm hne, hc⟩
      · rintro (⟨-, rfl⟩ | ⟨hne, hc⟩)
        · exact .inl rfl
        · exact .inr ⟨hc, Ne.symm hne⟩
  | attach place b =>
    refine ⟨h.sound.attach place b, ?_, fun c => ?_⟩
    · rw [namesOf_attach, ← h.names_eq]
      exact names_attach s place b
    · rw [stands_attach, Session.perform, h.sound.mem_attach_iff, ← h.names_eq]
      constructor
      · rintro ⟨d, hd, rfl⟩
        exact ⟨d, by split <;> exact (h.stands d).1 hd, by split <;> rfl⟩
      · rintro ⟨d, hd, hc⟩
        have hname : d.name = c.name := hd.name_eq
        rw [← hname] at hc hd
        exact ⟨d, (h.stands d).2 hd, hc⟩
  | clear =>
    refine ⟨⟨rfl, List.nodup_nil⟩, ?_, fun c => ?_⟩
    · rw [namesOf, recent_concat_clear]
      rfl
    · exact ⟨fun hc => absurd hc List.not_mem_nil, fun hc => absurd hc not_stands_clear⟩

theorem Recalls.run {s : Session} {before : List Step} (h : s.Recalls before) (steps : List Step) :
    (s.run steps).Recalls (before ++ steps) := by
  induction steps generalizing s before with
  | nil =>
    rw [List.append_nil]
    exact h
  | cons x steps ih =>
    rw [List.append_cons]
    exact ih (h.perform x)

/-- **A session is what its history tells.** Whatever was put in, attached and
cleared: no name comes twice, the index lists the names with their places, the
names are in the order in which they first came in since the last clear, under
each stands what came in last with the last block attached to it since, and the
blocks are those of these candidates, in that order. -/
theorem run_recalls (file : Path) (kind : Kind) (steps : List Step) :
    ((empty file kind).run steps).names.Nodup ∧
      ((empty file kind).run steps).index = ((empty file kind).run steps).names.zipIdx ∧
      ((empty file kind).run steps).names = namesOf steps ∧
      (∀ name c, ((empty file kind).run steps).get? name = some c ↔ Stands steps name c) ∧
      (∀ name, ((empty file kind).run steps).get? name = none ↔ name ∉ namesOf steps) ∧
      ((empty file kind).run steps).blocks =
        (namesOf steps).filterMap fun name => (((empty file kind).run steps).get? name).bind (·.block) := by
  have h : ((empty file kind).run steps).Recalls steps := (Recalls.empty file kind).run steps
  refine ⟨h.sound.nodup, h.sound.index, h.names_eq, fun name c => ?_, fun name => ?_, ?_⟩
  · rw [h.sound.get?_eq_some_iff, h.stands]
    constructor
    · rintro ⟨hc, rfl⟩
      exact hc
    · intro hc
      have hname := hc.name_eq
      exact ⟨hname ▸ hc, hname⟩
  · rw [h.sound.get?_eq_none_iff, h.names_eq]
  · rw [← h.names_eq]
    exact h.sound.blocks_eq

end Session
end DocScribe
