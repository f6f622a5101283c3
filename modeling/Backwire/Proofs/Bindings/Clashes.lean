import Backwire.Proofs.Bindings.Scopes

/-!
# Names within a file of bindings

A file of bindings holds what the definitions of a schema file become: types, and functions beside
the types of structs. Two definitions of a package differ in their names, but a service becomes a
module in snake case, a message has a builder as well, and the functions of a struct are called
after it in snake case. So names can clash all the same, and this is said of the definitions
(`ApartFrom`): nothing clashes in a file if its definitions are kept apart, and so are the members
of each (`Scope.clashFree_iff`).
-/

namespace Backwire.Bindings

open Package Schema
open Wire (bind_eq_ok_iff)

/-! ### Files -/

/-- **No two items of a file have one name**, and nothing clashes within an item. -/
structure ClashFree (items : List Item) : Prop where
  types : (items.flatMap Item.types).Nodup
  values : (items.flatMap Item.values).Nodup
  within : ∀ i ∈ items, i.Apart

/-! ### Definitions that are kept apart -/

variable {d e : Declared TypeUse}

/-- What the type of a definition is called, before it is an identifier. -/
def bindingName (d : Declared TypeUse) : String :=
  match d.body with
  | .service _ => snakeCase d.name
  | .enum _ | .struct _ | .message _ => d.name

/-- No other definition is called as the builder of a message is. -/
def WriterApart (d e : Declared TypeUse) : Prop :=
  match d.body with
  | .message _ => bindingName e ≠ (Identifier.ofName d.name).writer.name
  | .enum _ | .struct _ | .service _ => True

/-- The functions of a struct are not called as those of another one, and not as an enum. -/
def FunctionsApart (d e : Declared TypeUse) : Prop :=
  match d.body, e.body with
  | .struct _, .struct _ => snakeCase e.name ≠ snakeCase d.name
  | .struct _, .enum _ =>
    e.name ∉ [(Identifier.led "encode_" d.name).name, (Identifier.led "decode_" d.name).name]
  | _, _ => True

instance : (d e : Declared TypeUse) → Decidable (WriterApart d e)
  | ⟨_, _, .message _⟩, _ => inferInstanceAs (Decidable (_ ≠ _))
  | ⟨_, _, .enum _⟩, _ | ⟨_, _, .struct _⟩, _ | ⟨_, _, .service _⟩, _ => .isTrue trivial

instance : (d e : Declared TypeUse) → Decidable (FunctionsApart d e)
  | ⟨_, _, .struct _⟩, ⟨_, _, .struct _⟩ => inferInstanceAs (Decidable (_ ≠ _))
  | ⟨_, _, .struct _⟩, ⟨_, _, .enum _⟩ => inferInstanceAs (Decidable (_ ∉ _))
  | ⟨_, _, .struct _⟩, ⟨_, _, .message _⟩ | ⟨_, _, .struct _⟩, ⟨_, _, .service _⟩ => .isTrue trivial
  | ⟨_, _, .enum _⟩, _ | ⟨_, _, .message _⟩, _ | ⟨_, _, .service _⟩, _ => .isTrue trivial

/-- **The names of two definitions are kept apart**, and so is what is called after them. -/
structure ApartFrom (d e : Declared TypeUse) : Prop where
  names : ¬Alike (bindingName d) (bindingName e)
  writers : WriterApart d e ∧ WriterApart e d
  functions : FunctionsApart d e ∧ FunctionsApart e d

instance : Decidable (ApartFrom d e) :=
  decidable_of_iff (¬Alike (bindingName d) (bindingName e) ∧
    (WriterApart d e ∧ WriterApart e d) ∧ FunctionsApart d e ∧ FunctionsApart e d)
    ⟨fun ⟨hn, hw, hf⟩ => ⟨hn, hw, hf⟩, fun ⟨hn, hw, hf⟩ => ⟨hn, hw, hf⟩⟩

/-- The definitions of a schema file. -/
def declaredIn (p : Compiled) (file : Nat) : List (Declared TypeUse) :=
  (p.definitionsOf file).map Prod.fst

/-- **The definitions of a schema file are kept apart**, and so are the members of each. -/
structure ApartIn (p : Compiled) (file : Nat) : Prop where
  definitions : (declaredIn p file).Pairwise ApartFrom
  members : ∀ d ∈ declaredIn p file, MembersApart d.body

instance (p : Compiled) (file : Nat) : Decidable (ApartIn p file) :=
  decidable_of_iff ((declaredIn p file).Pairwise ApartFrom ∧
    ∀ d ∈ declaredIn p file, MembersApart d.body)
    ⟨fun ⟨hd, hm⟩ => ⟨hd, hm⟩, fun ⟨hd, hm⟩ => ⟨hd, hm⟩⟩

/-! ### The names of a definition -/

/-- The builder of a definition, if it is a message. -/
def writerNames (d : Declared TypeUse) : List String :=
  match d.body with
  | .message _ => [(Identifier.ofName d.name).writer.name]
  | .enum _ | .struct _ | .service _ => []

/-- The names that a definition takes among the types of its file. -/
def typeNames (d : Declared TypeUse) : List String :=
  (Identifier.ofName (bindingName d)).name :: writerNames d

/-- The names that a definition takes among the values of its file. -/
def valueNames (d : Declared TypeUse) : List String :=
  match d.body with
  | .enum _ => [(Identifier.ofName d.name).name]
  | .struct _ => [(Identifier.led "encode_" d.name).name, (Identifier.led "decode_" d.name).name]
  | .message _ | .service _ => []

theorem flatMap_types_definitionItems (s : Scope) (d : Declared TypeUse) :
    (s.definitionItems d).flatMap Item.types = typeNames d := by
  obtain ⟨name, file, body⟩ := d
  cases body <;> rfl

theorem flatMap_values_definitionItems (s : Scope) (d : Declared TypeUse) :
    (s.definitionItems d).flatMap Item.values = valueNames d := by
  obtain ⟨name, file, body⟩ := d
  cases body <;> rfl

/-- No reserved word, nor what it yields, is the name of a builder. -/
theorem isFree_writer (i : Identifier) : IsFree i.writer.name := by
  have hends : "Writer".toList <:+ i.writer.name.toList := by
    rw [Identifier.writer, Identifier.plain, String.toList_append]
    exact List.suffix_append ..
  have hwords : ∀ r ∈ reservedWords,
      ¬"Writer".toList <:+ r.toList ∧ ¬"Writer".toList <:+ (r ++ "_").toList := by decide
  exact ⟨fun h => (hwords _ h).1 hends, fun r hr heq => (hwords r hr).2 (heq ▸ hends)⟩

/-- Nor is it the name of a function of a struct. -/
theorem isFree_led {lead : String} (h : lead ∈ ["encode_", "decode_"]) (w : String) :
    IsFree (Identifier.led lead w).name := by
  rcases List.mem_pair.1 h with rfl | rfl
  · exact isFree_of_head? (c := 'e') (by simp [Identifier.led, Identifier.plain]) (by decide)
  · exact isFree_of_head? (c := 'd') (by simp [Identifier.led, Identifier.plain]) (by decide)

theorem not_mem_writerNames_iff :
    (Identifier.ofName (bindingName e)).name ∉ writerNames d ↔ WriterApart d e := by
  obtain ⟨name, file, body⟩ := d
  cases body with
  | message fields =>
    rw [writerNames, List.mem_singleton, Identifier.name_ofName_eq_iff_of_free (isFree_writer _)]
    exact Iff.rfl
  | enum | struct | service => simp [writerNames, WriterApart]

theorem disjoint_writerNames (h : ¬Alike (bindingName d) (bindingName e)) :
    (writerNames d).Disjoint (writerNames e) := by
  obtain ⟨name, file, body⟩ := d
  obtain ⟨name', file', body'⟩ := e
  cases body with
  | message fields =>
    cases body' with
    | message fields' =>
      have hne : (Identifier.ofName name).writer.name ≠ (Identifier.ofName name').writer.name :=
        fun heq => h (Identifier.name_ofName_eq_iff.1 ((String.append_left_inj _).1 heq))
      simpa [writerNames] using hne.symm
    | enum | struct | service => simp [writerNames]
  | enum | struct | service => simp [writerNames]

/-- **When the types of two definitions differ in their names.** -/
theorem disjoint_typeNames_iff : (typeNames d).Disjoint (typeNames e) ↔
    ¬Alike (bindingName d) (bindingName e) ∧ WriterApart d e ∧ WriterApart e d := by
  rw [typeNames, typeNames, List.disjoint_cons_left, List.disjoint_cons_right, List.mem_cons,
    not_or, Identifier.name_ofName_eq_iff, not_mem_writerNames_iff, not_mem_writerNames_iff]
  constructor
  · rintro ⟨⟨hnames, hright⟩, hleft, -⟩
    exact ⟨hnames, hleft, hright⟩
  · rintro ⟨hnames, hleft, hright⟩
    exact ⟨⟨hnames, hright⟩, hleft, disjoint_writerNames hnames⟩

/-- **When the functions and values of two definitions differ in their names**, if the names of the
definitions do. -/
theorem disjoint_valueNames_iff (h : ¬Alike (bindingName d) (bindingName e)) :
    (valueNames d).Disjoint (valueNames e) ↔ FunctionsApart d e ∧ FunctionsApart e d := by
  have hleads : ∀ v w, (Identifier.led "encode_" v).name ≠ (Identifier.led "decode_" w).name := by
    simp [Identifier.led, Identifier.plain, ← String.toList_inj]
  have hled : ∀ lead v w, (Identifier.led lead v).name = (Identifier.led lead w).name ↔
      snakeCase v = snakeCase w := fun lead v w => String.append_right_inj lead
  have hfree (w : String) : ∀ x ∈ [(Identifier.led "encode_" w).name,
      (Identifier.led "decode_" w).name], IsFree x :=
    List.forall_mem_cons.2 ⟨isFree_led (by simp) w, List.forall_mem_singleton.2
      (isFree_led (by simp) w)⟩
  obtain ⟨name, file, body⟩ := d
  obtain ⟨name', file', body'⟩ := e
  cases body with
  | enum values =>
    cases body' with
    | enum values' =>
      have hne : (Identifier.ofName name).name ≠ (Identifier.ofName name').name :=
        mt Identifier.name_ofName_eq_iff.1 h
      simpa [valueNames, FunctionsApart] using hne.symm
    | struct fields' =>
      refine List.singleton_disjoint.trans ((not_congr ?_).trans (and_iff_right trivial).symm)
      exact Identifier.name_ofName_mem_iff (hfree name')
    | message | service => simp [valueNames, FunctionsApart]
  | struct fields =>
    cases body' with
    | enum values' =>
      refine List.disjoint_singleton.trans ((not_congr ?_).trans (and_iff_left trivial).symm)
      exact Identifier.name_ofName_mem_iff (hfree name)
    | struct fields' =>
      simp [valueNames, FunctionsApart, hleads, (hleads _ _).symm, hled, eq_comm]
    | message | service => simp [valueNames, FunctionsApart]
  | message | service => simp [valueNames, FunctionsApart]

/-- **When two definitions of a file do not clash.** -/
theorem apartFrom_iff : ApartFrom d e ↔
    (typeNames d).Disjoint (typeNames e) ∧ (valueNames d).Disjoint (valueNames e) := by
  rw [disjoint_typeNames_iff]
  constructor
  · rintro ⟨hnames, hwriters, hfunctions⟩
    exact ⟨⟨hnames, hwriters⟩, (disjoint_valueNames_iff hnames).2 hfunctions⟩
  · rintro ⟨⟨hnames, hwriters⟩, hvalues⟩
    exact ⟨hnames, hwriters, (disjoint_valueNames_iff hnames).1 hvalues⟩

theorem nodup_typeNames (d : Declared TypeUse) : (typeNames d).Nodup := by
  obtain ⟨name, file, body⟩ := d
  cases body with
  | message fields =>
    have hne : (Identifier.ofName name).name ≠ (Identifier.ofName name).writer.name := by
      simp [Identifier.writer, Identifier.plain, ← String.toList_inj]
    simpa [typeNames, writerNames, bindingName] using hne
  | enum | struct | service => exact List.nodup_singleton _

theorem nodup_valueNames (d : Declared TypeUse) : (valueNames d).Nodup := by
  obtain ⟨name, file, body⟩ := d
  cases body with
  | enum values => exact List.nodup_singleton _
  | struct fields =>
    simp [valueNames, Identifier.led, Identifier.plain, ← String.toList_inj]
  | message | service => exact List.nodup_nil

/-! ### The file of a schema file -/

section Files

variable {s : Scope} {p : Compiled}

theorem mem_of_mem_declaredIn {file : Nat} (h : d ∈ declaredIn p file) : d ∈ p.definitions := by
  obtain ⟨⟨d, n⟩, hmem, rfl⟩ := List.mem_map.1 h
  exact List.mem_of_getElem? (List.mem_zipIdx_iff_getElem?.1 (List.mem_of_mem_filter hmem))

theorem Scope.fileItems_eq (s : Scope) (p : Compiled) :
    s.fileItems p = fileAttribute :: (declaredIn p s.file).flatMap s.definitionItems := by
  rw [declaredIn, List.flatMap_map]
  rfl

/-- **When nothing clashes in the bindings of a schema file**: if its definitions are kept apart,
and so are the members of each. -/
theorem Scope.clashFree_iff (hword : p.Worded) (hnames : ∀ d ∈ p.definitions, d.body.names.Nodup) :
    ClashFree (s.fileItems p) ∧ (∀ d ∈ declaredIn p s.file, s.ShadowFree d.body) ↔
      ApartIn p s.file := by
  have htypes : (s.fileItems p).flatMap Item.types = (declaredIn p s.file).flatMap typeNames := by
    rw [fileItems_eq, List.flatMap_cons, List.flatMap_assoc]
    simp only [flatMap_types_definitionItems]
    rfl
  have hvalues : (s.fileItems p).flatMap Item.values =
      (declaredIn p s.file).flatMap valueNames := by
    rw [fileItems_eq, List.flatMap_cons, List.flatMap_assoc]
    simp only [flatMap_values_definitionItems]
    rfl
  have hwithin : (∀ i ∈ s.fileItems p, i.Apart) ↔
      ∀ d ∈ declaredIn p s.file, ∀ i ∈ s.definitionItems d, i.Apart := by
    rw [fileItems_eq]
    exact List.forall_mem_cons.trans ((and_iff_right trivial).trans List.forall_mem_flatMap)
  have hmembers : (∀ i ∈ s.fileItems p, i.Apart) ∧
      (∀ d ∈ declaredIn p s.file, s.ShadowFree d.body) ↔
      ∀ d ∈ declaredIn p s.file, MembersApart d.body := by
    rw [hwithin, ← forall₂_and]
    exact forall₂_congr fun d hd => definitionItems_apart_iff
      (hword d (mem_of_mem_declaredIn hd)) (hnames d (mem_of_mem_declaredIn hd))
  have hdefinitions : ((s.fileItems p).flatMap Item.types).Nodup ∧
      ((s.fileItems p).flatMap Item.values).Nodup ↔ (declaredIn p s.file).Pairwise ApartFrom := by
    rw [htypes, hvalues, List.nodup_flatMap, List.nodup_flatMap,
      and_iff_right fun d _ => nodup_typeNames d, and_iff_right fun d _ => nodup_valueNames d,
      ← List.pairwise_and_iff]
    exact List.Pairwise.iff fun _ _ => apartFrom_iff.symm
  constructor
  · rintro ⟨⟨ht, hv, hw⟩, hlocals⟩
    exact ⟨hdefinitions.1 ⟨ht, hv⟩, hmembers.1 ⟨hw, hlocals⟩⟩
  · rintro ⟨hd, hm⟩
    obtain ⟨ht, hv⟩ := hdefinitions.2 hd
    obtain ⟨hw, hlocals⟩ := hmembers.2 hm
    exact ⟨⟨ht, hv, hw⟩, hlocals⟩

theorem Scope.items_of_sourceFile {settings : Settings} {name : String} {module : Identifier}
    {file : SourceFile} (h : s.sourceFile settings p name module = .ok file) :
    file.items = s.fileItems p := by
  unfold sourceFile at h
  dsimp only at h
  split at h
  · cases h
  · split at h
    · cases h
    · cases h
      rfl

/-! ### The files of a package -/

/-- **Each schema file has one file**, in a module of its own. -/
theorem sourceFiles_ok {id : String}
    {file : Nat → String → Identifier → Except GenerateError SourceFile}
    {taken : List (Identifier × String)} {fs : List (Package.File Nat × Nat)}
    {made : List (Identifier × SourceFile)} (h : sourceFiles id file taken fs = .ok made) :
    List.Forall₂ (fun x m => m.1 = moduleName x.1.stem ∧ file x.2 x.1.name m.1 = .ok m.2) fs made ∧
      (made.map Prod.fst).Nodup ∧ ∀ m ∈ made.map Prod.fst, taken.lookup m = none := by
  induction fs generalizing taken made with
  | nil =>
    cases h
    exact ⟨.nil, List.nodup_nil, nofun⟩
  | cons x fs ih =>
    obtain ⟨f, i⟩ := x
    rw [sourceFiles] at h
    split at h
    · cases h
    · next hnew =>
      obtain ⟨one, hone, h⟩ := bind_eq_ok_iff.1 h
      obtain ⟨others, hothers, h⟩ := bind_eq_ok_iff.1 h
      cases h
      obtain ⟨hall, hnodup, htaken⟩ := ih hothers
      refine ⟨.cons ⟨rfl, hone⟩ hall, List.nodup_cons.2 ⟨fun hmem => ?_, hnodup⟩, ?_⟩
      · simpa using htaken _ hmem
      · refine List.forall_mem_cons.2 ⟨hnew, fun m hm => ?_⟩
        have hm := htaken m hm
        rw [List.lookup_cons] at hm
        split at hm
        · cases hm
        · exact hm

/-- **Nothing clashes in the file that gathers modules**, which all have names of their own. -/
theorem clashFree_gatheringItems {modules : List Identifier}
    (h : (modules.map Identifier.name).Nodup) : ClashFree (gatheringItems modules) := by
  have htypes : (gatheringItems modules).flatMap Item.types = modules.map Identifier.name := by
    rw [gatheringItems, List.flatMap_cons, List.flatMap_assoc, List.map_eq_flatMap]
    rfl
  have hitems : ∀ i ∈ gatheringItems modules, i.values = [] ∧ i.Apart := by
    refine List.forall_mem_cons.2 ⟨⟨rfl, trivial⟩, fun i hi => ?_⟩
    obtain ⟨m, -, hm⟩ := List.mem_flatMap.1 hi
    rcases List.mem_pair.1 hm with rfl | rfl <;> exact ⟨rfl, trivial⟩
  have hvalues : (gatheringItems modules).flatMap Item.values = [] :=
    List.flatMap_eq_nil_iff.2 fun i hi => (hitems i hi).1
  exact ⟨htypes ▸ h, hvalues ▸ List.nodup_nil, fun i hi => (hitems i hi).2⟩

end Files

/-- **Where bindings come from**: a file for each schema file, and a file that gathers them. -/
theorem generate_ok {read : PathReader} {settings : Settings} {s : Session} {number : Nat}
    {p : Compiled} {files : List SourceFile} (h : generate read settings s number p = .ok files) :
    ∃ runtime paths sources gathering, files = sources ++ [gathering] ∧
      sources.length = p.files.length ∧ ClashFree gathering.items ∧
      ∀ (i : Nat) (file : SourceFile), sources[i]? = some file →
        file.items = Scope.fileItems ⟨s, number, i, runtime, paths⟩ p := by
  obtain ⟨runtime, -, h⟩ := bind_eq_ok_iff.1 h
  obtain ⟨paths, -, h⟩ := bind_eq_ok_iff.1 h
  obtain ⟨made, hmade, h⟩ := bind_eq_ok_iff.1 h
  cases h
  obtain ⟨hall, hnodup, -⟩ := sourceFiles_ok hmade
  refine ⟨runtime, paths, _, _, rfl, ?_, clashFree_gatheringItems ?_, fun i file hfile => ?_⟩
  · rw [List.length_map, ← hall.length_eq, List.length_zipIdx]
  · refine hnodup.map_on fun m hm m' hm' hname => ?_
    have hplain : ∀ m ∈ made.map Prod.fst, m.isRaw = false := by
      refine List.forall_mem_map.2 fun m hm => ?_
      obtain ⟨x, -, hx, -⟩ := exists_of_forall₂ hall hm
      exact hx ▸ rfl
    obtain ⟨name, raw⟩ := m
    obtain ⟨name', raw'⟩ := m'
    obtain rfl : raw = false := hplain _ hm
    obtain rfl : raw' = false := hplain _ hm'
    exact congrArg Identifier.plain hname
  · rw [List.getElem?_map, Option.map_eq_some_iff] at hfile
    obtain ⟨m, hm, rfl⟩ := hfile
    obtain ⟨hi, rfl⟩ := List.getElem?_eq_some_iff.1 hm
    have hsource := (hall.get (hall.length_eq ▸ hi) hi).2
    simpa using Scope.items_of_sourceFile hsource

end Backwire.Bindings

namespace Backwire.Package

open Schema

/-! ### Samples -/

/-- The text of a file with one definition of each kind. -/
def drawingText : String :=
  "enum Shade { LIGHT = 0; DARK = 1; } struct Spot { x int32; y int32; } "
    ++ "message Shape { spot Spot 1; shade Shade 2; parts []Shape 3; } "
    ++ "service Canvas { Paint(shape Shape) (count int32); }"

/-- The package of this file, with the types that its members have. -/
def PackageOf.drawing {κ τ : Type} (int32 spot shade shape : τ) : PackageOf κ τ :=
  ⟨"c", .ofNames ["w", "c"], [⟨"m.spec", .ofNames ["w", "c", "m.spec"], [], []⟩],
    [⟨"Shade", 0, .enum [⟨"LIGHT", 0⟩, ⟨"DARK", 1⟩]⟩,
      ⟨"Spot", 0, .struct [⟨"x", ⟨0, int32⟩⟩, ⟨"y", ⟨0, int32⟩⟩]⟩,
      ⟨"Shape", 0, .message [⟨"spot", ⟨0, spot⟩, 1⟩, ⟨"shade", ⟨0, shade⟩, 2⟩,
        ⟨"parts", ⟨1, shape⟩, 3⟩]⟩,
      ⟨"Canvas", 0, .service [⟨"Paint", [⟨"shape", ⟨0, shape⟩⟩], [⟨"count", ⟨0, int32⟩⟩]⟩]⟩]⟩

/-- The package with its types as they are written. -/
def PackageOf.drawingWritten {κ : Type} : PackageOf κ TypeName :=
  .drawing (.builtin .int32) (.named ⟨none, "Spot"⟩) (.named ⟨none, "Shade"⟩)
    (.named ⟨none, "Shape"⟩)

/-- The package with its types resolved. -/
def PackageOf.drawingResolved : Compiled :=
  .drawing (.builtin .int32) (.named ⟨none, "Spot"⟩ ⟨.struct, ⟨0, 1⟩, none⟩)
    (.named ⟨none, "Shade"⟩ ⟨.enum, ⟨0, 0⟩, none⟩)
    (.named ⟨none, "Shape"⟩ ⟨.message, ⟨0, 2⟩, none⟩)

/-- The session in which it has been compiled. -/
def Session.drawing : Session := ⟨[.finished .drawingResolved], [("c", 0)]⟩

theorem attempt_drawing :
    Session.empty.attempt (.named drawingText) (.ofText "c") = (.ok 0, .drawing) := by
  have hschema : parse drawingText = .ok ⟨[], [],
      [⟨"Shade", .enum [⟨"LIGHT", 0⟩, ⟨"DARK", 1⟩]⟩,
        ⟨"Spot", .struct [⟨"x", ⟨0, .builtin .int32⟩⟩, ⟨"y", ⟨0, .builtin .int32⟩⟩]⟩,
        ⟨"Shape", .message [⟨"spot", ⟨0, .named ⟨none, "Spot"⟩⟩, 1⟩,
          ⟨"shade", ⟨0, .named ⟨none, "Shade"⟩⟩, 2⟩, ⟨"parts", ⟨1, .named ⟨none, "Shape"⟩⟩, 3⟩]⟩,
        ⟨"Canvas", .service [⟨"Paint", [⟨"shape", ⟨0, .named ⟨none, "Shape"⟩⟩⟩],
          [⟨"count", ⟨0, .builtin .int32⟩⟩]⟩]⟩]⟩ := by
    cbv
  have hdraft : draft (Surroundings.named drawingText).tree (.ofNames ["w", "c"]) "c" =
      .ok .drawingWritten :=
    draft_of_single ⟨"m.spec", .ofNames ["w", "c", "m.spec"], drawingText⟩ rfl rfl rfl
      (readText_named _) hschema (by cbv)
  refine Compiles.attempt (call_named _ ▸ ?_)
  exact .fresh (p := .drawingWritten) rfl hdraft .done rfl (by cbv)

theorem reachable_drawing : Session.drawing.Reachable := .of_attempt .empty attempt_drawing

/-- The text of a file with a struct that has a field of the name of a local, and a message that has
two fields of one name in snake case. -/
def clashingText : String :=
  "struct S { a int32; __rest int32; } message M { fooBar int32 1; foo_bar int32 2; }"

/-- The package of this file, with the type of all fields. -/
def PackageOf.clashing {κ τ : Type} (type : τ) : PackageOf κ τ :=
  ⟨"c", .ofNames ["w", "c"], [⟨"m.spec", .ofNames ["w", "c", "m.spec"], [], []⟩],
    [⟨"S", 0, .struct [⟨"a", ⟨0, type⟩⟩, ⟨"__rest", ⟨0, type⟩⟩]⟩,
      ⟨"M", 0, .message [⟨"fooBar", ⟨0, type⟩, 1⟩, ⟨"foo_bar", ⟨0, type⟩, 2⟩]⟩]⟩

/-- The session in which it has been compiled. -/
def Session.clashing : Session :=
  ⟨[.finished (.clashing (.builtin .int32))], [("c", 0)]⟩

theorem attempt_clashing :
    Session.empty.attempt (.named clashingText) (.ofText "c") = (.ok 0, .clashing) := by
  have hdraft : draft (Surroundings.named clashingText).tree (.ofNames ["w", "c"]) "c" =
      .ok (.clashing (.builtin .int32)) :=
    draft_of_single ⟨"m.spec", .ofNames ["w", "c", "m.spec"], clashingText⟩ rfl rfl rfl rfl
      (by cbv : parse clashingText = .ok ⟨[], [], [⟨"S", .struct [⟨"a", ⟨0, .builtin .int32⟩⟩,
        ⟨"__rest", ⟨0, .builtin .int32⟩⟩]⟩, ⟨"M", .message [⟨"fooBar", ⟨0, .builtin .int32⟩, 1⟩,
        ⟨"foo_bar", ⟨0, .builtin .int32⟩, 2⟩]⟩]⟩) (by cbv)
  refine Compiles.attempt (call_named _ ▸ ?_)
  exact .fresh (p := .clashing (.builtin .int32)) rfl hdraft .done rfl (by cbv)

end Backwire.Package

namespace Backwire.Bindings

open Package Schema

theorem exists_of_isOk {ε α : Type} {x : Except ε α} (h : x.isOk) : ∃ a, x = .ok a := by
  cases x with
  | ok a => exact ⟨a, rfl⟩
  | error => cases h

/-! ### When names clash -/

/-- **When names clash in bindings.** Take a package of a session that can be reached, and bindings
that are generated for it. Nothing clashes in the file that gathers the others. In the file for a
schema file nothing clashes, and no field hides what the function that reads its struct has bound,
if and only if the definitions of the schema file are kept apart, and so are the members of each. -/
theorem generate_clashFree_iff {s : Session} (h : s.Reachable) {number : Nat} {c : Compiled}
    (hc : s.package? number = some c) {read : PathReader} {settings : Settings}
    {files : List SourceFile} (hfiles : generate read settings s number c = .ok files) :
    ∃ runtime paths sources gathering, files = sources ++ [gathering] ∧
      sources.length = c.files.length ∧ ClashFree gathering.items ∧
      ∀ (i : Nat) (file : SourceFile), sources[i]? = some file →
        let sc : Scope := ⟨s, number, i, runtime, paths⟩
        file.items = sc.fileItems c ∧
          (ClashFree file.items ∧ (∀ d ∈ declaredIn c i, sc.ShadowFree d.body) ↔ ApartIn c i) := by
  obtain ⟨runtime, paths, sources, gathering, hall, hlength, hgathering, hitems⟩ :=
    generate_ok hfiles
  refine ⟨runtime, paths, sources, gathering, hall, hlength, hgathering, fun i file hfile => ?_⟩
  have hfile := hitems i file hfile
  refine ⟨hfile, ?_⟩
  rw [hfile]
  exact Scope.clashFree_iff (h.worded _ c hc) fun d hd => ((h.lawful _ c hc).1 d hd).1

/-- Nothing clashes in the bindings of one definition of each kind. -/
theorem generate_clashFree_iff_drawing : Session.drawing.Reachable ∧
    ∃ c, Session.drawing.package? 0 = some c ∧
      ∃ files, generate ModulePath.ofText ⟨defaultRuntime, true⟩ .drawing 0 c = .ok files ∧
        files.length = 2 ∧ ∀ file ∈ files, ClashFree file.items := by
  refine ⟨reachable_drawing, _, rfl, ?_⟩
  have hok : (generate ModulePath.ofText ⟨defaultRuntime, true⟩ .drawing 0
      .drawingResolved).isOk := by decide +kernel
  obtain ⟨files, hfiles⟩ := exists_of_isOk hok
  obtain ⟨runtime, paths, sources, gathering, rfl, hlength, hgathering, hsources⟩ :=
    generate_clashFree_iff reachable_drawing rfl hfiles
  refine ⟨_, hfiles, by rw [List.length_append, hlength]; rfl, ?_⟩
  rw [List.forall_mem_append, List.forall_mem_singleton]
  refine ⟨fun file hfile => ?_, hgathering⟩
  obtain ⟨i, hi, hget⟩ := List.mem_iff_getElem.1 hfile
  have hone : sources.length = 1 := hlength
  obtain rfl : i = 0 := by omega
  obtain ⟨-, hiff⟩ := hsources 0 file (List.getElem?_eq_some_iff.2 ⟨hi, hget⟩)
  exact (hiff.2 (by decide +kernel)).1

/-- **Bindings in which names clash** are generated for a package that is compiled. -/
theorem generate_clashing :
    Session.empty.attempt (.named clashingText) (.ofText "c") = (.ok 0, .clashing) ∧
    ∃ c, Session.clashing.package? 0 = some c ∧
      ∃ files, generate ModulePath.ofText ⟨defaultRuntime, true⟩ .clashing 0 c = .ok files ∧
        ∃ file ∈ files, ∃ sc : Scope, file.items = sc.fileItems c ∧
          ¬ClashFree file.items ∧ ∃ d ∈ c.definitions, ¬sc.ShadowFree d.body := by
  have hok : (generate ModulePath.ofText ⟨defaultRuntime, true⟩ .clashing 0
      (.clashing (.builtin .int32))).isOk := by decide +kernel
  obtain ⟨files, hfiles⟩ := exists_of_isOk hok
  obtain ⟨runtime, paths, sources, gathering, rfl, hlength, -, hitems⟩ := generate_ok hfiles
  have hone : sources.length = 1 := hlength
  have hfile : sources[0]? = some sources[0] := List.getElem?_eq_getElem (by omega)
  refine ⟨attempt_clashing, _, rfl, _, hfiles, sources[0], ?_, _, hitems 0 _ hfile, ?_, ?_⟩
  · exact List.mem_append_left _ (List.getElem_mem _)
  · rw [hitems 0 _ hfile, Scope.fileItems_eq]
    intro hfree
    have hmember := (Scope.message_apart_iff (by decide)).1 fun i hi => hfree.within i
      (List.mem_cons_of_mem _ (List.mem_flatMap.2 ⟨_, .tail _ (.head _), hi⟩))
    exact absurd hmember (by decide +kernel)
  · refine ⟨_, List.mem_cons_self, fun hfree => ?_⟩
    have hmember := (Scope.shadowFree_iff (by decide) (by decide +kernel)).1 hfree
    exact absurd hmember (by decide +kernel)

end Backwire.Bindings
