/-
Which format a file is documented by.

Extensions are compared in a normal form. The formats of the settings are
merged by this form of their extensions, and the catalog brings what comes out
into normal form once more. The second time changes nothing, unless a blank
follows the dots that an extension starts with (`normalExtension_normal`):
`. rb` first becomes ` rb` and then `rb`. `Settings.lookup_iff_settled` says
which format a path finds under all settings, and that it is the format of its
extension, with every extension in the catalog once, exactly when the settings
are settled (`Settings.Settled`). `TwoSpellings.first_wins` has settings that
are not.
-/
import DocScribe.Catalog
import DocScribe.Proofs.PathFacts
import DocScribe.Proofs.Words
import Mathlib.Data.List.Induction
import Mathlib.Data.List.Nodup

namespace DocScribe

/-! ## Small letters -/

/-- Only letters are made small, and they stay letters. -/
theorem toLower_cases (c : Char) :
    c.toLower = c ∨ (65 ≤ c.toNat ∧ c.toNat ≤ 90 ∧ c.toLower.toNat = c.toNat + 32) := by
  unfold Char.toLower
  split
  · next h =>
    obtain ⟨hlow, hhigh⟩ := h
    have hlow : 65 ≤ c.val.toNat := UInt32.le_iff_toNat_le.1 hlow
    have hhigh : c.val.toNat ≤ 90 := UInt32.le_iff_toNat_le.1 hhigh
    refine .inr ⟨hlow, hhigh, ?_⟩
    change (c.val + 32).toNat = c.val.toNat + 32
    rw [UInt32.toNat_add, show (32 : UInt32).toNat = 32 from rfl]
    omega
  · exact .inl rfl

theorem toLower_toLower (c : Char) : c.toLower.toLower = c.toLower := by
  rcases toLower_cases c with h | ⟨hlow, hhigh, h⟩
  · rw [h, h]
  · rcases toLower_cases c.toLower with h' | ⟨hlow', hhigh', -⟩
    · exact h'
    · omega

/-- A character that is no letter comes from itself alone. -/
theorem toLower_eq_iff {c d : Char} (hd : d.toNat < 65) : c.toLower = d ↔ c = d := by
  rcases toLower_cases c with h | ⟨hlow, hhigh, h⟩
  · rw [h]
  · constructor
    · rintro rfl
      omega
    · rintro rfl
      omega

theorem isBlank_toLower (c : Char) : isBlank c.toLower = isBlank c := by
  rcases toLower_cases c with h | ⟨hlow, hhigh, h⟩
  · rw [h]
  · simp only [isBlank, h]
    grind

theorem Text.mem_asciiLower {d : Char} (hd : d.toNat < 65) {t : Text} : d ∈ Text.asciiLower t ↔ d ∈ t := by
  simp [Text.asciiLower, toLower_eq_iff hd]

/-! ## Normal extensions -/

/-- A text without the dots it starts with. -/
def dropDots (t : Text) : Text := t.dropWhile (· == '.')

theorem normalExtension_eq (t : Text) : normalExtension t = Text.asciiLower (dropDots (Text.trim t)) := rfl

theorem trimmed_asciiLower {t : Text} (h : Text.Trimmed t) : Text.Trimmed (Text.asciiLower t) := by
  constructor
  · intro c hc
    rw [Text.asciiLower, List.head?_map] at hc
    obtain ⟨d, hd, rfl⟩ := Option.map_eq_some_iff.1 hc
    rw [isBlank_toLower, h.head d hd]
  · intro c hc
    rw [Text.asciiLower, List.getLast?_map] at hc
    obtain ⟨d, hd, rfl⟩ := Option.map_eq_some_iff.1 hc
    rw [isBlank_toLower, h.last d hd]

theorem dropDots_normal (t : Text) : dropDots (normalExtension t) = normalExtension t := by
  refine Text.dropWhile_eq_of_head fun c hc => ?_
  rw [normalExtension_eq, Text.asciiLower, List.head?_map] at hc
  obtain ⟨d, hd, rfl⟩ := Option.map_eq_some_iff.1 hc
  have hdot := Text.head_dropWhile hd
  simpa [toLower_eq_iff (d := '.') (by decide)] using hdot

theorem asciiLower_normal (t : Text) : Text.asciiLower (normalExtension t) = normalExtension t := by
  simp only [normalExtension_eq, Text.asciiLower, List.map_map, Function.comp_def, toLower_toLower]

/-- What is in normal form stays as it is when no blank follows the first dots
of what was written. -/
theorem normalExtension_normal {t : Text} (h : ∀ c ∈ (normalExtension t).head?, isBlank c = false) :
    normalExtension (normalExtension t) = normalExtension t := by
  have htrimmed : Text.Trimmed (normalExtension t) := by
    refine ⟨h, fun c hc => ?_⟩
    rw [normalExtension_eq, Text.asciiLower, List.getLast?_map] at hc
    obtain ⟨d, hd, rfl⟩ := Option.map_eq_some_iff.1 hc
    obtain ⟨dots, hdots⟩ := List.dropWhile_suffix (fun c : Char => c == '.') (l := Text.trim t)
    rw [isBlank_toLower]
    refine (Text.trimmed_trim t).last d ?_
    rw [← hdots, List.getLast?_append, ← dropDots, Option.mem_def.1 hd]
    rfl
  rw [normalExtension_eq (normalExtension t), htrimmed.trim_eq, dropDots_normal, asciiLower_normal]

theorem mem_normalExtension {d : Char} (hd : d.toNat < 65) {t : Text} (h : d ∈ normalExtension t) : d ∈ t :=
  Text.mem_of_mem_trim ((List.dropWhile_suffix _).subset ((Text.mem_asciiLower hd).1 h))

theorem normalExtension_of_not_mem_dot {t : Text} (h : '.' ∉ t) :
    normalExtension (normalExtension t) = normalExtension t := by
  have hdots : dropDots (Text.trim t) = Text.trim t := by
    refine Text.dropWhile_eq_of_head fun c hc => beq_eq_false_iff_ne.2 ?_
    rintro rfl
    exact h (Text.mem_of_mem_trim (List.mem_of_mem_head? hc))
  refine normalExtension_normal ?_
  rw [normalExtension_eq, hdots]
  exact (trimmed_asciiLower (Text.trimmed_trim t)).head

/-- An extension that paths have: in normal form, without dots and slashes. -/
def Text.IsExtension (x : Text) : Prop := normalExtension x = x ∧ '.' ∉ x ∧ '/' ∉ x

namespace Path

theorem piece_of_componentOf {first absolute : Bool} {piece name : Text}
    (h : componentOf first absolute piece = some (.name name)) : piece = name := by
  unfold componentOf at h
  grind

theorem fileName?_free {p : Path} {name : Text} (h : p.fileName? = some name) : '/' ∉ name := by
  have hmem : Component.name name ∈ p.components := by
    unfold fileName? at h
    split at h
    · next t hlast =>
      cases h
      exact List.mem_of_getLast? hlast
    · cases h
  obtain ⟨first, hname⟩ : ∃ first, ∃ piece ∈ Text.pieces (· == '/') p.text,
      componentOf first p.isAbsolute piece = some (.name name) := by
    rw [components_eq] at hmem
    cases hpieces : Text.pieces (· == '/') p.text with
    | nil => simp [hpieces, componentsOf] at hmem
    | cons piece rest =>
      rw [hpieces, componentsOf, List.mem_append, Option.mem_toList, List.mem_filterMap] at hmem
      rcases hmem with hmem | ⟨q, hq, hmem⟩
      · exact ⟨true, piece, List.mem_cons_self, hmem⟩
      · exact ⟨false, q, List.mem_cons_of_mem piece hq, hmem⟩
  obtain ⟨piece, hpiece, hname⟩ := hname
  obtain rfl := piece_of_componentOf hname
  exact fun hslash => by simpa using mem_pieces_free hpiece '/' hslash

/-- The extension of a path has no dots and no slashes. -/
theorem extension?_free {p : Path} {e : Text} (h : p.extension? = some e) : '.' ∉ e ∧ '/' ∉ e := by
  obtain ⟨name, hname, h⟩ := Option.bind_eq_some_iff.1 h
  simp only [Option.ite_none_right_eq_some, Option.some.injEq] at h
  obtain ⟨-, rfl⟩ := h
  rw [List.mem_reverse, List.mem_reverse]
  refine ⟨fun hdot => ?_, fun hslash => fileName?_free hname ?_⟩
  · simpa using List.all_eq_true.1 List.all_takeWhile '.' hdot
  · exact List.mem_reverse.1 ((List.takeWhile_prefix _).subset hslash)

/-- A name with one dot in it, as a path. -/
theorem extension?_dotted {x : Text} (hdot : '.' ∉ x) (hslash : '/' ∉ x) :
    (Path.mk ('a' :: '.' :: x)).extension? = some x := by
  have hname : (Path.mk ('a' :: '.' :: x)).fileName? = some ('a' :: '.' :: x) := by
    rw [fileName?, components_eq, Text.pieces_of_not_mem (by simpa using hslash)]
    simp [componentsOf, componentOf]
  have hfree : ∀ c ∈ x.reverse, (c != '.') = true := by
    intro c hc
    rw [bne_iff_ne]
    rintro rfl
    exact hdot (List.mem_reverse.1 hc)
  have hafter : (('a' :: '.' :: x).reverse.takeWhile (· != '.')).reverse = x := by
    rw [show ('a' :: '.' :: x).reverse = x.reverse ++ ['.', 'a'] by simp, List.takeWhile_append_of_pos hfree]
    simp
  rw [extension?, hname, Option.bind_some, hafter, if_pos (by simp)]

/-- **The extensions that paths have.** -/
theorem exists_normalExtension?_iff {x : Text} : (∃ p : Path, p.normalExtension? = some x) ↔ x.IsExtension := by
  constructor
  · rintro ⟨p, hp⟩
    obtain ⟨e, he, rfl⟩ := Option.map_eq_some_iff.1 hp
    obtain ⟨hdot, hslash⟩ := extension?_free he
    exact ⟨normalExtension_of_not_mem_dot hdot, fun h => hdot (mem_normalExtension (by decide) h),
      fun h => hslash (mem_normalExtension (by decide) h)⟩
  · rintro ⟨hnormal, hdot, hslash⟩
    exact ⟨⟨'a' :: '.' :: x⟩, by rw [normalExtension?, extension?_dotted hdot hslash, Option.map_some, hnormal]⟩

end Path

/-! ## Merging formats -/

namespace Format

theorem extensions_place (f : Format) (known : List Format) :
    (f.place known).map (·.extension) =
      if f.extension ∈ known.map (·.extension) then known.map (·.extension)
      else known.map (·.extension) ++ [f.extension] := by
  induction known with
  | nil => rfl
  | cons g rest ih =>
    by_cases hg : g.extension = f.extension
    · simp [place, hg]
    · rw [place, if_neg hg, List.map_cons, ih, List.map_cons]
      by_cases hmem : f.extension ∈ rest.map (·.extension)
      · rw [if_pos hmem, if_pos (List.mem_cons_of_mem _ hmem)]
      · rw [if_neg hmem, if_neg (by simpa [Ne.symm hg] using hmem), List.cons_append]

/-- A format that is put in its place is found under its extension. -/
theorem find?_place (f : Format) (known : List Format) (x : Text) :
    (f.place known).find? (·.extension == x) =
      if f.extension = x then some f else known.find? (·.extension == x) := by
  induction known with
  | nil => by_cases hx : f.extension = x <;> simp [place, hx]
  | cons g rest ih =>
    by_cases hg : g.extension = f.extension
    · by_cases hx : f.extension = x <;> simp [place, hg, hx]
    · rw [place, if_neg hg, List.find?_cons, List.find?_cons, ih]
      by_cases hgx : g.extension = x
      · have hx : f.extension ≠ x := fun h => hg (hgx.trans h.symm)
        simp [hgx, hx]
      · rw [show (g.extension == x) = false by simpa using hgx]

/-- Looking for a format by its extension finds the first extension that
answers, and then the format under it. -/
theorem find?_extension (known : List Format) (q : Text → Bool) :
    known.find? (fun f => q f.extension) =
      ((known.map (·.extension)).find? q).bind fun x => known.find? (·.extension == x) := by
  induction known with
  | nil => rfl
  | cons g rest ih =>
    cases hg : q g.extension with
    | true => simp [hg]
    | false =>
      rw [List.find?_cons, hg, List.map_cons, List.find?_cons, hg, ih]
      refine Option.bind_congr fun x hx => ?_
      have hne : g.extension ≠ x := by
        rintro rfl
        simp [List.find?_some hx] at hg
      simp [hne]

/-- A format whose extension is in its last form has the same plan as before. -/
theorem plan_normalized {f : Format}
    (h : normalExtension (normalExtension f.extension) = normalExtension f.extension) :
    f.normalized.plan = f.plan := by
  have hextension : normalExtension f.normalized.extension = normalExtension f.extension := h
  have hkind (kind : Kind) : f.normalized.kindPlan kind = f.kindPlan kind := by
    rw [kindPlan, hextension]
    rfl
  simp only [plan, hextension, hkind]
  rfl

end Format

namespace Settings

/-- The extensions that settings have a format for, in normal form: that of the
built-in format, then those of the entries. -/
def extensions (s : Settings) : List Text := Format.python.extension :: s.formats.map (normalExtension ·.extension)

/-- The format of an extension: that of the last entry with this extension, or
the built-in one. -/
def formatFor? (s : Settings) (x : Text) : Option Format :=
  (s.formats.reverse.find? (normalExtension ·.extension == x)).or
    (if x = Format.python.extension then some .python else none)

/-- What merging the formats of settings comes to. -/
structure Merges (s : Settings) (known : List Format) : Prop where
  /-- No extension has two formats. -/
  nodup : (known.map (·.extension)).Nodup
  /-- The extensions come in the order in which they are first given. -/
  firsts : ∀ q : Text → Bool, (known.map (·.extension)).find? q = s.extensions.find? q
  /-- Under an extension stands its format. -/
  found : ∀ x, known.find? (·.extension == x) = (s.formatFor? x).map Format.normalized

/-- Settings with one more format at the end. -/
def concat (s : Settings) (f : Format) : Settings := { s with formats := s.formats ++ [f] }

variable {s : Settings} {known : List Format}

theorem merges_nil (h : s.formats = []) : s.Merges [.python] := by
  refine ⟨List.nodup_singleton _, fun q => by simp [extensions, h], fun x => ?_⟩
  have hnormal : Format.python.normalized = .python := by
    rw [Format.normalized, show normalExtension Format.python.extension = Format.python.extension by decide]
  by_cases hx : x = Format.python.extension
  · simp [formatFor?, h, hx, hnormal]
  · simp [formatFor?, h, hx, Ne.symm hx]

theorem Merges.mem_iff (h : s.Merges known) {x : Text} : x ∈ known.map (·.extension) ↔ x ∈ s.extensions := by
  have hmem (l : List Text) : x ∈ l ↔ (l.find? (· == x)).isSome := by simp
  rw [hmem, h.firsts, ← hmem]

/-- One more format. -/
theorem Merges.concat (h : s.Merges known) (f : Format) : (s.concat f).Merges (f.normalized.place known) := by
  refine ⟨?_, fun q => ?_, fun x => ?_⟩
  · rw [Format.extensions_place]
    split
    · exact h.nodup
    · next hnew => exact List.nodup_append.2 ⟨h.nodup, List.nodup_singleton _, by simpa using hnew⟩
  · have hext : (s.concat f).extensions = s.extensions ++ [f.normalized.extension] := by
      simp [extensions, Settings.concat, Format.normalized]
    rw [Format.extensions_place, hext, List.find?_append, ← h.firsts]
    split
    · next hmem =>
      -- an extension that comes again is never the first
      cases hfind : (known.map (·.extension)).find? q with
      | some x => rfl
      | none =>
        have := List.find?_eq_none.1 hfind _ hmem
        simp [this]
    · rw [List.find?_append]
  · rw [Format.find?_place, h.found]
    by_cases hx : f.normalized.extension = x
    · have hx' : (normalExtension f.extension == x) = true := beq_iff_eq.2 hx
      simp [formatFor?, Settings.concat, hx, hx']
    · have hx' : (normalExtension f.extension == x) = false := beq_eq_false_iff_ne.2 hx
      simp [formatFor?, Settings.concat, hx, hx']

theorem merges_allFormats (s : Settings) : s.Merges s.allFormats := by
  have hmerges : ∀ formats : List Format, Merges { s with formats := formats }
      (formats.foldl (fun known f => f.normalized.place known) [.python]) := by
    intro formats
    induction formats using List.reverseRecOn with
    | nil => exact merges_nil rfl
    | append_singleton formats f ih =>
      rw [List.foldl_append]
      exact ih.concat f
  exact hmerges s.formats

/-! ## Looking up -/

/-- The catalog of settings. -/
def catalog (s : Settings) : Catalog := .ofFormats s.allFormats

/-- A path whose extension is brought into normal form from one of `extensions`
finds the format of this one. -/
theorem forPath?_eq (s : Settings) (p : Path) :
    s.catalog.forPath? p = p.normalExtension?.bind fun x =>
      ((s.extensions.find? (normalExtension · == x)).bind s.formatFor?).map (·.normalized.plan) := by
  have hmerges := s.merges_allFormats
  have hfind (x : Text) : (s.allFormats.map Format.plan).find? (·.extension == x) =
      (s.allFormats.find? (normalExtension ·.extension == x)).map Format.plan := List.find?_map
  refine Option.bind_congr fun x _ => ?_
  rw [catalog, Catalog.ofFormats, hfind, Format.find?_extension s.allFormats (normalExtension · == x),
    hmerges.firsts]
  cases s.extensions.find? (normalExtension · == x) with
  | none => rfl
  | some k =>
    rw [Option.bind_some, Option.bind_some, hmerges.found, Option.map_map]
    rfl

/-- Settings whose extensions are in a form that does not change any more,
except where no path has it and no other extension comes to it. -/
def Settled (s : Settings) : Prop :=
  ∀ k ∈ s.extensions, normalExtension k = k ∨
    (¬(normalExtension k).IsExtension ∧ ∀ l ∈ s.extensions, normalExtension l = normalExtension k → l = k)

theorem formatFor?_isSome {s : Settings} {x : Text} : (s.formatFor? x).isSome ↔ x ∈ s.extensions := by
  simp only [formatFor?, extensions, Option.isSome_or, Bool.or_eq_true, List.mem_cons, List.mem_map,
    List.find?_isSome, List.mem_reverse, beq_iff_eq]
  by_cases hx : x = Format.python.extension <;> simp [hx]

theorem normalExtension_of_formatFor? {s : Settings} {x : Text} {f : Format} (h : s.formatFor? x = some f) :
    normalExtension f.extension = x := by
  rcases Option.or_eq_some_iff.1 h with h | ⟨-, h⟩
  · simpa using List.find?_some h
  · obtain ⟨rfl, hf⟩ := Option.ite_none_right_eq_some.1 h
    cases hf
    decide

theorem extensions_catalog (s : Settings) :
    s.catalog.formats.map (·.extension) = (s.allFormats.map (·.extension)).map normalExtension := by
  simp [catalog, Catalog.ofFormats, Format.plan]

/-- Whether no two extensions come to the same when they are brought into normal
form. -/
def Apart (s : Settings) : Prop :=
  ∀ k ∈ s.extensions, ∀ l ∈ s.extensions, normalExtension k = normalExtension l → k = l

theorem nodup_catalog_iff {s : Settings} : (s.catalog.formats.map (·.extension)).Nodup ↔ s.Apart := by
  have hmerges := s.merges_allFormats
  rw [extensions_catalog, List.nodup_map_iff_inj_on hmerges.nodup]
  simp only [Apart, hmerges.mem_iff]

theorem Apart.find? {s : Settings} (h : s.Apart) {k : Text} (hk : k ∈ s.extensions) :
    s.extensions.find? (normalExtension · == normalExtension k) = some k := by
  obtain ⟨l, hl⟩ : ∃ l, s.extensions.find? (normalExtension · == normalExtension k) = some l :=
    Option.isSome_iff_exists.1 (List.find?_isSome.2 ⟨k, hk, by simp⟩)
  rw [hl, h l (List.mem_of_find?_eq_some hl) k hk (by simpa using List.find?_some hl)]

theorem Settled.apart {s : Settings} (h : s.Settled) : s.Apart := by
  intro k hk l hl hsame
  rcases h k hk with hk' | ⟨-, hk'⟩
  · rcases h l hl with hl' | ⟨-, hl'⟩
    · rw [← hk', hsame, hl']
    · exact hl' k hk hsame
  · exact (hk' l hl hsame.symm).symm

/-- Under settled settings a path finds the format of its extension. -/
theorem Settled.forPath?_eq {s : Settings} (h : s.Settled) (p : Path) :
    s.catalog.forPath? p = p.normalExtension?.bind fun x => (s.formatFor? x).map Format.plan := by
  rw [Settings.forPath?_eq]
  refine Option.bind_congr fun x hx => ?_
  have hext : x.IsExtension := Path.exists_normalExtension?_iff.1 ⟨p, hx⟩
  cases hfind : s.extensions.find? (normalExtension · == x) with
  | none =>
    have hmem : x ∉ s.extensions := fun hmem => by simpa [hext.1] using List.find?_eq_none.1 hfind x hmem
    rw [← formatFor?_isSome, Option.not_isSome_iff_eq_none] at hmem
    rw [hmem]
    rfl
  | some k =>
    obtain rfl : normalExtension k = x := by simpa using List.find?_some hfind
    obtain hk | ⟨hnone, -⟩ := h k (List.mem_of_find?_eq_some hfind)
    · rw [hk, Option.bind_some]
      refine Option.map_congr fun f hf => Format.plan_normalized ?_
      rw [normalExtension_of_formatFor? hf, hk]
    · exact absurd hext hnone

/-- Nothing less will do: a path that has the normal form of an extension finds
the format of that one, so there must be one for the normal form itself. -/
theorem settled_of_found {s : Settings} (hapart : s.Apart)
    (hfound : ∀ p, s.catalog.forPath? p = p.normalExtension?.bind fun x => (s.formatFor? x).map Format.plan) :
    s.Settled := by
  intro k hk
  refine or_iff_not_imp_left.2 fun hne => ⟨fun hext => ?_, fun l hl h => hapart l hl k hk h⟩
  obtain ⟨p, hp⟩ := Path.exists_normalExtension?_iff.2 hext
  have hfind := hfound p
  rw [Settings.forPath?_eq, hp, Option.bind_some, Option.bind_some, hapart.find? hk, Option.bind_some] at hfind
  have hmem : normalExtension k ∈ s.extensions := by
    have hsome := formatFor?_isSome.2 hk
    rwa [← formatFor?_isSome, ← Option.isSome_map, ← hfind, Option.isSome_map]
  exact hne (hapart _ hmem k hk hext.1)

/-- **Which format a path finds.** Under all settings it is that of the first
extension whose normal form is the extension of the path. This is the format of
that extension, and the catalog has no extension twice, exactly when the
settings are settled. -/
theorem lookup_iff_settled (s : Settings) :
    (∀ p, s.catalog.forPath? p = p.normalExtension?.bind fun x =>
      ((s.extensions.find? (normalExtension · == x)).bind s.formatFor?).map (·.normalized.plan)) ∧
    ((s.catalog.formats.map (·.extension)).Nodup ∧
        (∀ p, s.catalog.forPath? p = p.normalExtension?.bind fun x => (s.formatFor? x).map Format.plan) ↔
      s.Settled) := by
  refine ⟨s.forPath?_eq, ?_⟩
  rw [nodup_catalog_iff]
  exact ⟨fun ⟨hapart, hfound⟩ => settled_of_found hapart hfound, fun h => ⟨h.apart, h.forPath?_eq⟩⟩

/-- Settings are settled when no entry writes a blank behind the dots that its
extension starts with. -/
theorem settled_of_heads {s : Settings}
    (h : ∀ f ∈ s.formats, ∀ c ∈ (normalExtension f.extension).head?, isBlank c = false) : s.Settled := by
  intro k hk
  rcases List.mem_cons.1 hk with rfl | hk
  · exact .inl (by decide)
  · obtain ⟨f, hf, rfl⟩ := List.mem_map.1 hk
    exact .inl (normalExtension_normal (h f hf))

/-! ## An extension in two spellings -/

namespace TwoSpellings

/-- A format that documents whole files only. -/
def headed (extension docOpen : Text) : Format :=
  { extension := extension, header := { docOpen := docOpen, docClose := "# end" } }

/-- The second entry is for the same extension as the first, which has a blank
behind its dot. -/
def settings : Settings := { formats := [headed ". rb" "# A", headed "rb" "# B"] }

def docOpens (plan : FormatPlan) : List Text := plan.kinds.map (·.style.docOpen)

/-- The catalog has the extension twice, and the first entry wins. -/
theorem first_wins :
    ¬(settings.catalog.formats.map (·.extension)).Nodup ∧
      (settings.catalog.forPath? ⟨"a.rb"⟩).map docOpens = some ["# A".toList] ∧
      (settings.formatFor? "rb").map (docOpens ·.plan) = some ["# B".toList] := by
  refine ⟨by decide, ?_, ?_⟩
  · rfl
  · rfl

end TwoSpellings

end Settings
end DocScribe
