import Backwire.Bindings.Generate
import Backwire.Proofs.Bindings.Identifiers
import Backwire.Proofs.Package.Words

/-!
# Which definitions have one path

Code that refers to a type gives its path: a name alone in the file of the type, one step up and
down in its package, and the way through the modules of another package everywhere else. The three
forms are told apart by their lengths and their beginnings, so two types have one path only if they
are looked for in one place and under one identifier (`Place.path_inj`).

The names of the definitions of a package differ, which leaves two ways in which a path can stand
for two definitions: a name that is written with an underscore behind it, and the ID of a package
that is spelled in other characters in the names of modules (`definitionPath_eq_iff`).
-/

namespace Backwire.Bindings

open Package Schema
open Wire (bind_eq_ok_iff)

/-! ### Paths -/

/-- Parts are found again between separators. -/
theorem intersperse_inj {α : Type} {sep : α} {as bs : List α} :
    as.intersperse sep = bs.intersperse sep ↔ as = bs := by
  refine ⟨fun h => List.ext_getElem? fun i => ?_, fun h => h ▸ rfl⟩
  have hget (l : List α) : l[i]? = (l.intersperse sep)[2 * i]? :=
    List.getElem?_intersperse_two_mul.symm
  rw [hget, h, ← hget]

/-- The names of the modules of a package that gives no path itself. -/
def moduleNames (id : String) : List String :=
  (Text.segments '/' id).map fun segment => (moduleName segment).name

theorem typeCode_defaultModulePath (id : String) :
    (defaultModulePath id).typeCode = ("crate" :: moduleNames id).intersperse "::" := by
  have hcode : (defaultModulePath id).typeCode =
      ("crate" :: ((Text.segments '/' id).map moduleName).map Identifier.text).intersperse "::" :=
    rfl
  rw [hcode, List.map_map]
  rfl

/-! ### Places -/

/-- Where code looks for a type. -/
inductive Place where
  /-- In its own file. -/
  | here
  /-- In another file of its package. -/
  | beside
  /-- In another package, under the modules of these names. -/
  | away (modules : List String)
  deriving DecidableEq

namespace Place

/-- The path of a type in a place. -/
def path (name : Identifier) : Place → Code
  | here => [name.text]
  | beside => ["super", "::", name.text]
  | away modules => ("crate" :: modules).intersperse "::" ++ ["::", name.text]

variable {p q : Place} {v w : Identifier} {modules : List String}

/-- The way to another package is longer than that to the file, and begins elsewhere than that to
the package. -/
theorem path_away_ne (modules : List String) (v w : Identifier) :
    (away modules).path v ≠ here.path w ∧ (away modules).path v ≠ beside.path w := by
  have hbegins : ∃ rest, (away modules).path v = "crate" :: "::" :: rest := by
    cases modules with
    | nil => exact ⟨_, rfl⟩
    | cons name names => exact ⟨_, rfl⟩
  obtain ⟨rest, hpath⟩ := hbegins
  rw [hpath]
  simp [path]

/-- **A path tells the place and the name.** -/
theorem path_inj : p.path v = q.path w ↔ p = q ∧ v.text = w.text := by
  cases p with
  | here =>
    cases q with
    | here => simp [path]
    | beside => simp [path]
    | away modules => simp [(path_away_ne modules w v).1.symm]
  | beside =>
    cases q with
    | here => simp [path]
    | beside => simp [path]
    | away modules => simp [(path_away_ne modules w v).2.symm]
  | away modules =>
    cases q with
    | here => simp [(path_away_ne modules v w).1]
    | beside => simp [(path_away_ne modules v w).2]
    | away modules' =>
      constructor
      · intro h
        obtain ⟨hmodules, hname⟩ := List.append_inj' h rfl
        obtain ⟨-, rfl⟩ := List.cons.inj (intersperse_inj.1 hmodules)
        exact ⟨rfl, by simpa using hname⟩
      · rintro ⟨heq, hname⟩
        cases heq
        rw [path, path, hname]

end Place

/-- Where the code of a file looks for the definition `a`, which stands in a file of a package. -/
def Scope.placeOf (s : Scope) (a : DefinitionId) (file : Nat) (id : String) : Place :=
  if a.package ≠ s.package then .away (moduleNames id)
  else if file = s.file then .here else .beside

section Scopes

variable {sc : Scope} {a b : DefinitionId} {c c' : Compiled} {d d' : Declared TypeUse}

/-- **The path of a definition is that of its place and its name**, if its package gives no path
itself. -/
theorem definitionPath_eq (hc : sc.session.package? a.package = some c)
    (hd : c.definitions[a.index]? = some d)
    (hmodule : sc.modules[a.package]? = some (defaultModulePath c.id)) :
    sc.definitionPath a "" = (sc.placeOf a d.file c.id).path (.ofName d.name) := by
  have hfound : sc.session.definition? a = some d := Option.bind_eq_some_iff.2 ⟨c, hc, hd⟩
  have hempty : d.name ++ "" = d.name := String.append_empty
  rw [Scope.definitionPath, Scope.definitionCode, hfound]
  simp only [Scope.pathTo, hempty, Scope.placeOf]
  split
  · rw [hmodule, Place.path, ← typeCode_defaultModulePath]
    rfl
  · split <;> rfl

/-- Two definitions of one package stand in one place, unless one of them stands in the file. -/
theorem placeOf_eq_iff_of_eq {file file' : Nat} {id : String} (h : a.package = b.package) :
    sc.placeOf a file id = sc.placeOf b file' id ↔
      (a.package = sc.package → (file = sc.file ↔ file' = sc.file)) := by
  rw [Scope.placeOf, Scope.placeOf, ← h]
  by_cases hown : a.package = sc.package
  · rw [if_neg (not_not.2 hown), if_neg (not_not.2 hown)]
    by_cases hfile : file = sc.file <;> by_cases hfile' : file' = sc.file <;>
      simp [hown, hfile, hfile']
  · simp [hown]

/-- Definitions of two packages stand in one place if the names of their modules are the same. -/
theorem placeOf_eq_iff_of_ne {file file' : Nat} {id id' : String} (h : a.package ≠ b.package) :
    sc.placeOf a file id = sc.placeOf b file' id' ↔ a.package ≠ sc.package ∧
      b.package ≠ sc.package ∧ moduleNames id = moduleNames id' := by
  rw [Scope.placeOf, Scope.placeOf]
  by_cases ha : a.package = sc.package <;> by_cases hb : b.package = sc.package
  · exact absurd (ha.trans hb.symm) h
  · rw [if_neg (not_not.2 ha), if_pos hb]
    split <;> simp [ha]
  · rw [if_pos ha, if_neg (not_not.2 hb)]
    split <;> simp [hb]
  · rw [if_pos ha, if_pos hb, Place.away.injEq, and_iff_right ha, and_iff_right hb]

end Scopes

/-! ### Sessions -/

section Sessions

variable {s : Session} {i : Nat} {c : Compiled}

theorem getElem?_filterMap {α β : Type} {f : α → Option β} {l : List α}
    (h : ∀ a ∈ l, (f a).isSome) (i : Nat) : (l.filterMap f)[i]? = l[i]?.bind f := by
  induction l generalizing i with
  | nil => rfl
  | cons a l ih =>
    obtain ⟨ha, hl⟩ := List.forall_mem_cons.1 h
    obtain ⟨b, hb⟩ := Option.isSome_iff_exists.1 ha
    rw [List.filterMap_cons_some hb]
    cases i with
    | zero => exact hb.symm
    | succ i => exact ih hl i

/-- Between calls, packages are listed by their numbers. -/
theorem getElem?_packages (h : s.Settled) (hc : s.package? i = some c) :
    s.packages[i]? = some (c, i) := by
  have hfinished : ∀ x ∈ s.entries.zipIdx, (x.1.package?.map fun p => (p, x.2)).isSome := by
    intro x hx
    have hentry := List.mem_zipIdx_iff_getElem?.1 hx
    obtain ⟨p, hp⟩ := h.finished x.2 (List.getElem?_eq_some_iff.1 hentry).1
    rw [Session.package?, hentry, Option.bind_some] at hp
    rw [hp]
    rfl
  obtain ⟨entry, hentry, hpackage⟩ := Option.bind_eq_some_iff.1 hc
  have hget := getElem?_filterMap hfinished i
  rw [List.getElem?_zipIdx, hentry] at hget
  refine hget.trans ?_
  simp [hpackage]

/-- **Where no package gives a path**, every package has the path that is made of its ID. -/
theorem exists_modules (read : PathReader) (h : s.Settled)
    (hdefault : ∀ i c, s.package? i = some c → c.option? moduleOption = none) :
    ∃ paths, (s.packages.mapM fun (p, _) => modulePath read p) = .ok paths ∧
      ∀ i c, s.package? i = some c → paths[i]? = some (defaultModulePath c.id) := by
  refine ⟨s.packages.map fun x => defaultModulePath x.1.id, ?_, fun i c hc => ?_⟩
  · refine mapM_eq_ok_iff.2 (List.forall₂_map_right_iff.2 (List.forall₂_same.2 fun x hx => ?_))
    obtain ⟨c, i⟩ := x
    have hnone := hdefault i c (Session.mem_packages.1 hx)
    show modulePath read c = _
    rw [modulePath.eq_def, hnone]
  · rw [List.getElem?_map, getElem?_packages h hc]
    rfl

end Sessions

end Backwire.Bindings

namespace Backwire.Package

open Schema

/-! ### A sample -/

/-- The text of a file that uses a message of each of two packages. -/
def pairedText : String :=
  "import x \"a-b\" import y \"a_b\" message N { p x.M 1; q y.M 2; }"

/-- Three directories below the only import root, each with one file. Two of them declare a message
of one name, and the third one imports them. -/
def Surroundings.paired : Surroundings where
  tree := ⟨[(.ofNames ["w"], .directory), (.ofNames ["w", "a-b"], .directory),
    (.ofNames ["w", "a-b", "m.spec"], .file "message M {}".toUTF8),
    (.ofNames ["w", "a_b"], .directory),
    (.ofNames ["w", "a_b", "m.spec"], .file "message M {}".toUTF8),
    (.ofNames ["w", "c"], .directory), (.ofNames ["w", "c", "m.spec"], .file pairedText.toUTF8)]⟩
  workingDirectory := .ofNames ["w"]
  importPaths := []

section Paired

variable {κ τ : Type}

/-- A package that declares the message `M`. -/
def PackageOf.pairedImported (id : String) : PackageOf κ τ :=
  ⟨id, .ofNames ["w", id], [⟨"m.spec", .ofNames ["w", id, "m.spec"], [], []⟩],
    [⟨"M", 0, .message []⟩]⟩

/-- The package that imports both, with what its imports have led to and the types of its fields. -/
def PackageOf.pairedImporting (first second : κ) (p q : τ) : PackageOf κ τ :=
  ⟨"c", .ofNames ["w", "c"], [⟨"m.spec", .ofNames ["w", "c", "m.spec"],
    [⟨"a-b", "x", first⟩, ⟨"a_b", "y", second⟩], []⟩],
    [⟨"N", 0, .message [⟨"p", ⟨0, p⟩, 1⟩, ⟨"q", ⟨0, q⟩, 2⟩]⟩]⟩

end Paired

/-- The package `c` as it is written. -/
def PackageOf.pairedWritten {κ : Type} (first second : κ) : PackageOf κ TypeName :=
  .pairedImporting first second (.named ⟨some "x", "M"⟩) (.named ⟨some "y", "M"⟩)

/-- The package `c` with its types resolved. -/
def PackageOf.pairedResolved : Compiled :=
  .pairedImporting 1 2 (.named ⟨some "x", "M"⟩ ⟨.message, ⟨1, 0⟩, some 0⟩)
    (.named ⟨some "y", "M"⟩ ⟨.message, ⟨2, 0⟩, some 1⟩)

/-- The session in which `c` has been compiled. -/
def Session.paired : Session :=
  ⟨[.finished .pairedResolved, .finished (.pairedImported "a-b"),
    .finished (.pairedImported "a_b")], [("a_b", 2), ("a-b", 1), ("c", 0)]⟩

theorem draft_pairedImported {id : String} (h : id = "a-b" ∨ id = "a_b") :
    draft Surroundings.paired.tree (.ofNames ["w", id]) id = .ok (.pairedImported id) := by
  have hparse : parse "message M {}" = .ok ⟨[], [], [⟨"M", .message []⟩]⟩ := by cbv
  rcases h with rfl | rfl
  · exact draft_of_single ⟨"m.spec", .ofNames ["w", "a-b", "m.spec"], "message M {}"⟩ rfl rfl rfl
      rfl hparse (by cbv)
  · exact draft_of_single ⟨"m.spec", .ofNames ["w", "a_b", "m.spec"], "message M {}"⟩ rfl rfl rfl
      rfl hparse (by cbv)

theorem draft_pairedImporting :
    draft Surroundings.paired.tree (.ofNames ["w", "c"]) "c" = .ok (.pairedWritten () ()) := by
  have hparse : parse pairedText = .ok ⟨[⟨some "x", "a-b"⟩, ⟨some "y", "a_b"⟩], [],
      [⟨"N", .message [⟨"p", ⟨0, .named ⟨some "x", "M"⟩⟩, 1⟩,
        ⟨"q", ⟨0, .named ⟨some "y", "M"⟩⟩, 2⟩]⟩]⟩ := by cbv
  exact draft_of_single ⟨"m.spec", .ofNames ["w", "c", "m.spec"], pairedText⟩ rfl rfl rfl rfl
    hparse (by cbv)

theorem compiles_pairedImported {s : Session} {id : String} {from? : Option Location}
    (h : id = "a-b" ∨ id = "a_b") (hnew : s.indexOf? id = none) :
    Compiles .paired s (.package (.ofNames ["w", id]) id from?) [s.entries.length]
      ((s.start (.pairedImported id)).finish s.entries.length (.pairedImported id)) :=
  .fresh (p := .pairedImported id) hnew (draft_pairedImported h) .done rfl rfl

theorem attempt_paired : Session.empty.attempt .paired (.ofText "c") = (.ok 0, .paired) := by
  have hcall : Surroundings.paired.call (.ofText "c") =
      .package (.ofNames ["w", "c"]) "c" none := by cbv
  have hfirst : Surroundings.paired.directoryOf? "a-b" = some (.ofNames ["w", "a-b"]) := by cbv
  have hsecond : Surroundings.paired.directoryOf? "a_b" = some (.ofNames ["w", "a_b"]) := by cbv
  refine Compiles.attempt (hcall ▸ ?_)
  exact .fresh (p := .pairedWritten 1 2) rfl draft_pairedImporting
    (.next hfirst (compiles_pairedImported (.inl rfl) rfl)
      (.next hsecond (compiles_pairedImported (.inr rfl) rfl) .done)) rfl rfl

theorem reachable_paired : Session.paired.Reachable := .of_attempt .empty attempt_paired

end Backwire.Package

namespace Backwire.Bindings

open Package Schema

theorem option_paired (i : Nat) (c : Compiled) (h : Session.paired.package? i = some c) :
    c.option? moduleOption = none := by
  match i with
  | 0 => cases h; rfl
  | 1 => cases h; rfl
  | 2 => cases h; rfl
  | i + 3 => cases h

/-! ### Paths of definitions -/

/-- **Which definitions have one path.** Take a session in which no package gives a path for its
module. Then every package has one, and whatever file the code stands in, two definitions have one
path if and only if

* they stand in one package, and if it is that of the code, both in the file of the code or both in
  other files, and one of the names becomes the other one because it may not be an identifier; or
* they stand in two packages other than that of the code, whose modules have the same names, and
  their own names are the same or one of them becomes the other one.

Every other path stands for one definition, of whichever kind it is. -/
theorem definitionPath_eq_iff (read : PathReader) {s : Session} (h : s.Reachable)
    (hdefault : ∀ i c, s.package? i = some c → c.option? moduleOption = none) :
    ∃ paths, (s.packages.mapM fun (p, _) => modulePath read p) = .ok paths ∧
      ∀ (number file : Nat) (runtime : ModulePath) (a b : DefinitionId) (c c' : Compiled)
        (d d' : Declared TypeUse), a ≠ b →
        s.package? a.package = some c → c.definitions[a.index]? = some d →
        s.package? b.package = some c' → c'.definitions[b.index]? = some d' →
        let sc : Scope := ⟨s, number, file, runtime, paths⟩
        sc.definitionPath a "" = sc.definitionPath b "" ↔
          (a.package = b.package ∧ (a.package = number → (d.file = file ↔ d'.file = file)) ∧
            (Yields d.name d'.name ∨ Yields d'.name d.name)) ∨
          a.package ≠ b.package ∧ a.package ≠ number ∧ b.package ≠ number ∧
            moduleNames c.id = moduleNames c'.id ∧ Alike d.name d'.name := by
  obtain ⟨paths, hpaths, hmodules⟩ := exists_modules read h.settled hdefault
  refine ⟨paths, hpaths, fun number file runtime a b c c' d d' hab hc hd hc' hd' => ?_⟩
  intro sc
  have hword := not_mem_of_isName (h.worded _ c hc d (List.mem_of_getElem? hd)).1
  have hword' := not_mem_of_isName (h.worded _ c' hc' d' (List.mem_of_getElem? hd')).1
  rw [definitionPath_eq hc hd (hmodules _ c hc), definitionPath_eq hc' hd' (hmodules _ c' hc'),
    Place.path_inj, Identifier.text_ofName_inj hword hword']
  by_cases hpackage : a.package = b.package
  · obtain rfl : c = c' := Option.some.inj (hc.symm.trans (hpackage ▸ hc'))
    have hindex : a.index ≠ b.index := fun hindex =>
      hab (show (⟨a.package, a.index⟩ : DefinitionId) = ⟨b.package, b.index⟩ by
        rw [hpackage, hindex])
    have hname : d.name ≠ d'.name := fun hname =>
      hindex ((h.resolved.unambiguous _ c hc).eq_of_name hd hd' hname)
    have halike : Alike d.name d'.name ↔ Yields d.name d'.name ∨ Yields d'.name d.name :=
      or_iff_right hname
    rw [placeOf_eq_iff_of_eq hpackage, halike, and_iff_right hpackage]
    exact (or_iff_left fun hne => hne.1 hpackage).symm
  · rw [placeOf_eq_iff_of_ne hpackage, and_iff_right hpackage, and_assoc, and_assoc]
    exact (or_iff_right fun heq => hpackage heq.1).symm

/-- The messages of two packages have one path in the code of a third one, and none of them has that
of the message of this one. -/
theorem definitionPath_eq_iff_paired : Session.paired.Reachable ∧
    ∃ paths,
      (Session.paired.packages.mapM fun (p, _) => modulePath ModulePath.ofText p) = .ok paths ∧
      ∀ runtime, let sc : Scope := ⟨.paired, 0, 0, runtime, paths⟩
        sc.definitionPath ⟨1, 0⟩ "" = sc.definitionPath ⟨2, 0⟩ "" ∧
        sc.definitionPath ⟨0, 0⟩ "" ≠ sc.definitionPath ⟨1, 0⟩ "" := by
  obtain ⟨paths, hpaths, hiff⟩ :=
    definitionPath_eq_iff ModulePath.ofText reachable_paired option_paired
  refine ⟨reachable_paired, paths, hpaths, fun runtime => ⟨?_, fun heq => ?_⟩⟩
  · refine (hiff 0 0 runtime ⟨1, 0⟩ ⟨2, 0⟩ _ _ _ _ (by decide) rfl rfl rfl rfl).2 (.inr ?_)
    exact ⟨by decide, by decide, by decide, by decide +kernel, .inl rfl⟩
  · rcases (hiff 0 0 runtime ⟨0, 0⟩ ⟨1, 0⟩ _ _ _ _ (by decide) rfl rfl rfl rfl).1 heq with h | h
    · exact absurd h.1 (by decide)
    · exact h.2.1 rfl

/-- Two messages of packages that are compiled, and whose bindings are generated, have one path. -/
theorem definitionPath_repeated :
    Session.empty.attempt .paired (.ofText "c") = (.ok 0, .paired) ∧
    (∀ i c, Session.paired.package? i = some c → c.option? moduleOption = none) ∧
    (generate ModulePath.ofText ⟨defaultRuntime, true⟩ .paired 0 .pairedResolved).isOk ∧
    ∃ paths,
      (Session.paired.packages.mapM fun (p, _) => modulePath ModulePath.ofText p) = .ok paths ∧
      (∃ d d', Session.paired.definition? ⟨1, 0⟩ = some d ∧ d.kind? = some .message ∧
        Session.paired.definition? ⟨2, 0⟩ = some d' ∧ d'.kind? = some .message) ∧
      ∀ runtime, let sc : Scope := ⟨.paired, 0, 0, runtime, paths⟩
        sc.definitionPath ⟨1, 0⟩ "" = ["crate", "::", "a_b", "::", "M"] ∧
        sc.definitionPath ⟨2, 0⟩ "" = ["crate", "::", "a_b", "::", "M"] := by
  refine ⟨attempt_paired, option_paired, by decide +kernel, _, rfl, ⟨_, _, rfl, rfl, rfl, rfl⟩,
    fun runtime => ⟨?_, ?_⟩⟩
  · rfl
  · rfl

end Backwire.Bindings
