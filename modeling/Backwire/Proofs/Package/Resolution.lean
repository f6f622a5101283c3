import Backwire.Proofs.Package.Occurrences
import Backwire.Proofs.Package.Reachable

/-!
# What names stand for

In a file of a package, an unqualified name stands for the definition of this name in the package,
in whichever file, and a qualified one for the definition of this name in the package that an import
of the file has led to (`Names`). Since names differ, a reference stands for one definition at most,
and what a compiled package has recorded for it is that one, in every session that calls lead to
(`references_resolve`).

Without its links and its targets a compiled package is what its files say (`PackageOf.ReadFrom`).
So nothing is left out: a package some reference of which stands for nothing is not compiled, and
the error names the place of the first one.
-/

namespace Backwire.Package

open Schema
open Wire (bind_eq_ok_iff bind_eq_error_iff pure_eq_ok_iff)

/-! ### Names and what they stand for -/

section Naming

variable {κ τ σ : Type}

namespace PackageOf

/-- **Definition `i` of a package has this name**, and it can be used as a type, of this kind. -/
def Declares (p : PackageOf κ τ) (name : String) (i : Nat) (kind : Kind) : Prop :=
  ∃ d, p.definitions[i]? = some d ∧ d.name = name ∧ d.kind? = some kind

/-- **Names differ where they have to**: those of definitions, and in each file those of imports. -/
structure Unambiguous (p : PackageOf κ τ) : Prop where
  definitions : (p.definitions.map Declared.name).Nodup
  imports : ∀ f ∈ p.files, (f.imports.map Link.name).Nodup

/-- A name stands for one definition. -/
theorem Unambiguous.eq_of_name {p : PackageOf κ τ} (h : p.Unambiguous) {i j : Nat}
    {d d' : Declared τ} (hd : p.definitions[i]? = some d) (hd' : p.definitions[j]? = some d')
    (hname : d.name = d'.name) : i = j := by
  have hi : (p.definitions.map Declared.name)[i]? = some d.name := by rw [List.getElem?_map, hd]; rfl
  have hj : (p.definitions.map Declared.name)[j]? = some d.name := by
    rw [List.getElem?_map, hd', hname]
    rfl
  exact (List.getElem?_inj (List.getElem?_eq_some_iff.1 hi).1 h.definitions).1 (hi.trans hj.symm)

@[simp] theorem declares_map (leaf : τ → σ) (p : PackageOf κ τ) (name : String) (i : Nat)
    (kind : Kind) : (p.map leaf).Declares name i kind ↔ p.Declares name i kind := by
  unfold Declares map
  rw [List.getElem?_map]
  cases p.definitions[i]? with
  | none => simp
  | some d =>
    simp only [Option.map_some, Option.some.injEq, exists_eq_left', Declared.kind?_map]
    rfl

@[simp] theorem unambiguous_map (leaf : τ → σ) (p : PackageOf κ τ) :
    (p.map leaf).Unambiguous ↔ p.Unambiguous := by
  have hnames : (p.map leaf).definitions.map Declared.name = p.definitions.map Declared.name :=
    List.map_map
  exact ⟨fun h => ⟨hnames ▸ h.definitions, h.imports⟩, fun h => ⟨hnames ▸ h.definitions, h.imports⟩⟩

theorem unambiguous_of_unlinked {p : PackageOf κ τ} (h : p.unlinked.Unambiguous) :
    p.Unambiguous := by
  refine ⟨h.definitions, fun f hf => ?_⟩
  have hnames := h.imports _ (List.mem_map_of_mem hf)
  rwa [File.unlinked, List.map_map] at hnames

end PackageOf

/-- **What a reference stands for** in the file `file` of the package `p`, which has the number
`number`. A service is not a type, so nothing stands for it. -/
inductive Names (s : Session) (number : Nat) (p : PackageOf Nat τ) (file : Nat) :
    Reference → Target → Prop where
  /-- A definition of the package itself. -/
  | own {name : String} {i : Nat} {kind : Kind} (h : p.Declares name i kind) :
      Names s number p file ⟨none, name⟩ ⟨kind, ⟨number, i⟩, none⟩
  /-- A definition of the package that the import of a local name has led to. -/
  | imported {qualifier name : String} {f : File Nat} {link : Nat} {l : Link Nat} {q : Compiled}
      {i : Nat} {kind : Kind} (hfile : p.files[file]? = some f) (hlink : f.imports[link]? = some l)
      (hname : l.name = qualifier) (hpackage : s.package? l.package = some q)
      (h : q.Declares name i kind) :
      Names s number p file ⟨some qualifier, name⟩ ⟨kind, ⟨l.package, i⟩, some link⟩

end Naming

/-! ### Looking names up -/

section Looking

theorem getElem?_of_findIdx? {α : Type} {q : α → Bool} {l : List α} {i : Nat}
    (h : l.findIdx? q = some i) : ∃ a, l[i]? = some a ∧ q a = true := by
  obtain ⟨hlt, ha, -⟩ := List.findIdx?_eq_some_iff_getElem.1 h
  exact ⟨l[i], List.getElem?_eq_getElem hlt, ha⟩

/-- A key is found if a member has it. -/
theorem findIdx?_eq_none_iff {α : Type} {key : α → String} {l : List α} {x : String} :
    (l.findIdx? fun a => key a == x) = none ↔ x ∉ l.map key := by
  simp [List.findIdx?_eq_none_iff]

/-- Where keys differ, the first member of a key is the only one. -/
theorem findIdx?_eq_some_iff {α : Type} {key : α → String} {l : List α} (h : (l.map key).Nodup)
    {x : String} {i : Nat} :
    (l.findIdx? fun a => key a == x) = some i ↔ ∃ a, l[i]? = some a ∧ key a = x := by
  constructor
  · intro hfind
    obtain ⟨a, ha, hkey⟩ := getElem?_of_findIdx? hfind
    exact ⟨a, ha, eq_of_beq hkey⟩
  · rintro ⟨a, ha, rfl⟩
    cases hfind : l.findIdx? fun b => key b == key a with
    | none =>
      have hmem : key a ∈ l.map key := List.mem_map_of_mem (List.mem_of_getElem? ha)
      exact absurd hmem (findIdx?_eq_none_iff.1 hfind)
    | some j =>
      obtain ⟨b, hb, hkey⟩ := getElem?_of_findIdx? hfind
      have hi : (l.map key)[i]? = some (key a) := by rw [List.getElem?_map, ha]; rfl
      have hj : (l.map key)[j]? = some (key a) := by
        rw [List.getElem?_map, hb]
        exact congrArg some (eq_of_beq hkey)
      obtain ⟨hlt, -⟩ := List.getElem?_eq_some_iff.1 hi
      rw [(List.getElem?_inj hlt h).1 (hi.trans hj.symm)]

variable {κ τ : Type}

/-- **A name is looked up among the definitions of a package.** -/
theorem PackageOf.typeIn?_eq_some_iff {p : PackageOf κ τ} (hp : p.Unambiguous) {name : String}
    {i : Nat} {kind : Kind} : p.typeIn? name = some (i, kind) ↔ p.Declares name i kind := by
  have hindex {j : Nat} := findIdx?_eq_some_iff hp.definitions (x := name) (i := j)
  change (p.indexOf? name >>= fun j => p.definitions[j]? >>= fun d => d.kind? >>= fun k =>
    some (j, k)) = some (i, kind) ↔ _
  simp only [Option.bind_eq_bind, Option.bind_eq_some_iff, Option.some.injEq, Prod.mk.injEq]
  constructor
  · rintro ⟨j, hj, d, hd, k, hkind, rfl, rfl⟩
    obtain ⟨d', hd', hname⟩ := hindex.1 hj
    cases hd.symm.trans hd'
    exact ⟨d, hd, hname, hkind⟩
  · rintro ⟨d, hd, hname, hkind⟩
    exact ⟨i, hindex.2 ⟨d, hd, hname⟩, d, hd, kind, hkind, rfl, rfl⟩

/-- A local name is looked up among the imports of a file. -/
theorem linkIn?_eq_some_iff {links : List (Link Nat)} (h : (links.map Link.name).Nodup)
    {name : String} {i n : Nat} :
    linkIn? links name = some (i, n) ↔ ∃ l, links[i]? = some l ∧ l.name = name ∧ l.package = n := by
  have hindex {j : Nat} := findIdx?_eq_some_iff h (x := name) (i := j)
  change (links.findIdx? _ >>= fun j => links[j]? >>= fun l => some (j, l.package)) = _ ↔ _
  simp only [Option.bind_eq_bind, Option.bind_eq_some_iff, Option.some.injEq, Prod.mk.injEq]
  constructor
  · rintro ⟨j, hj, l, hl, rfl, rfl⟩
    obtain ⟨l', hl', hname⟩ := hindex.1 hj
    cases hl.symm.trans hl'
    exact ⟨l, hl, hname, rfl⟩
  · rintro ⟨l, hl, hname, rfl⟩
    exact ⟨i, hindex.2 ⟨l, hl, hname⟩, l, hl, rfl, rfl⟩

theorem linkIn?_eq_none_iff {links : List (Link Nat)} {name : String} :
    linkIn? links name = none ↔ name ∉ links.map Link.name := by
  rw [← findIdx?_eq_none_iff]
  cases hfind : links.findIdx? fun l => l.name == name with
  | none => simp [linkIn?, hfind]
  | some i =>
    obtain ⟨l, hl, -⟩ := getElem?_of_findIdx? hfind
    simp [linkIn?, hfind, hl]

/-- The imports of a file of a package. -/
theorem PackageOf.linkIn?_eq_some_iff {p : PackageOf Nat τ} (hp : p.Unambiguous) {file : Nat}
    {name : String} {i n : Nat} :
    linkIn? ((p.files[file]?.map File.imports).getD []) name = some (i, n) ↔
      ∃ f l, p.files[file]? = some f ∧ f.imports[i]? = some l ∧ l.name = name ∧ l.package = n := by
  cases hfile : p.files[file]? with
  | none => simp [linkIn?]
  | some f =>
    have hnames := hp.imports f (List.mem_of_getElem? hfile)
    rw [Option.map_some, Option.getD_some, Package.linkIn?_eq_some_iff hnames]
    simp

/-- What is missing where a reference stands for nothing: the import, or else the type. -/
def PackageOf.missing (p : PackageOf Nat τ) (file : Nat) (r : Reference) : Missing :=
  match r.qualifier with
  | none => .type r
  | some q =>
    if q ∈ ((p.files[file]?.map File.imports).getD []).map Link.name then .type r else .localName q

variable {s : Session} {number file : Nat} {p : Linked} {location : Location} {r : Reference}
  {t : Target} {err : CompileError}

/-- No two definitions of a finished package have one name, and no two imports of one of its
files. -/
def Session.Unambiguous (s : Session) : Prop := ∀ i c, s.package? i = some c → c.Unambiguous

/-- **A reference is resolved to what it stands for.** -/
theorem resolveName_eq_ok_iff (hs : s.Unambiguous) (hp : p.Unambiguous) :
    resolveName s number p file location r = .ok t ↔ Names s number p file r t := by
  obtain ⟨qualifier, name⟩ := r
  cases qualifier with
  | none =>
    constructor
    · intro h
      simp only [resolveName] at h
      split at h
      · next hfound =>
        cases h
        exact .own ((PackageOf.typeIn?_eq_some_iff hp).1 hfound)
      · cases h
    · intro h
      cases h with
      | own h => simp only [resolveName, (PackageOf.typeIn?_eq_some_iff hp).2 h]
  | some qualifier =>
    constructor
    · intro h
      simp only [resolveName] at h
      split at h
      · cases h
      next hlink =>
      obtain ⟨f, l, hfile, hl, hname, rfl⟩ := (PackageOf.linkIn?_eq_some_iff hp).1 hlink
      split at h
      · next hfound =>
        cases h
        obtain ⟨q, hq, hfound⟩ := Option.bind_eq_some_iff.1 hfound
        exact .imported hfile hl hname hq ((PackageOf.typeIn?_eq_some_iff (hs _ _ hq)).1 hfound)
      · cases h
    · intro h
      cases h with
      | @imported _ _ f link l q i kind hfile hl hname hq h =>
        have hlink := (PackageOf.linkIn?_eq_some_iff hp).2 ⟨f, l, hfile, hl, hname, rfl⟩
        simp only [resolveName, hlink, hq, Option.bind_some,
          (PackageOf.typeIn?_eq_some_iff (hs _ _ hq)).2 h]

/-- **A reference stands for one definition at most.** -/
theorem Names.unique {q : PackageOf Nat τ} (hs : s.Unambiguous) (hq : q.Unambiguous) {t' : Target}
    (h : Names s number q file r t) (h' : Names s number q file r t') : t = t' := by
  cases h with
  | own h =>
    cases h' with
    | own h' =>
      have hsame := ((PackageOf.typeIn?_eq_some_iff hq).2 h).symm.trans
        ((PackageOf.typeIn?_eq_some_iff hq).2 h')
      cases hsame
      rfl
  | imported hfile hlink hname hpackage h =>
    cases h' with
    | imported hfile' hlink' hname' hpackage' h' =>
      have hfound := (PackageOf.linkIn?_eq_some_iff hq).2 ⟨_, _, hfile, hlink, hname, rfl⟩
      have hfound' := (PackageOf.linkIn?_eq_some_iff hq).2 ⟨_, _, hfile', hlink', hname', rfl⟩
      obtain ⟨rfl, hto⟩ := Prod.mk.inj (Option.some.inj (hfound.symm.trans hfound'))
      rw [← hto] at hpackage' ⊢
      cases hpackage.symm.trans hpackage'
      have hsame := ((PackageOf.typeIn?_eq_some_iff (hs _ _ hpackage)).2 h).symm.trans
        ((PackageOf.typeIn?_eq_some_iff (hs _ _ hpackage)).2 h')
      cases hsame
      rfl

/-- What is not resolved is missing, and the error says which part of it. -/
theorem resolveName_error (h : resolveName s number p file location r = .error err) :
    err = .notFound location (p.missing file r) := by
  obtain ⟨qualifier, name⟩ := r
  cases qualifier with
  | none =>
    simp only [resolveName] at h
    split at h
    · cases h
    · cases h
      rfl
  | some qualifier =>
    simp only [resolveName] at h
    simp only [PackageOf.missing]
    split at h
    · next hlink =>
      cases h
      rw [if_neg (linkIn?_eq_none_iff.1 hlink)]
    · next hlink =>
      have hmem : qualifier ∈ ((p.files[file]?.map File.imports).getD []).map Link.name := by
        by_contra hnot
        rw [linkIn?_eq_none_iff.2 hnot] at hlink
        cases hlink
      split at h
      · cases h
      · cases h
        rw [if_pos hmem]

/-- **A reference that stands for nothing is not found** in its place. -/
theorem resolveName_eq_error_iff (hs : s.Unambiguous) (hp : p.Unambiguous) :
    resolveName s number p file location r = .error err ↔
      (∀ t, ¬ Names s number p file r t) ∧ err = .notFound location (p.missing file r) := by
  have hok (t : Target) : resolveName s number p file location r = .ok t ↔ _ :=
    resolveName_eq_ok_iff hs hp
  have hnone : (∀ t, ¬ Names s number p file r t) ↔
      ∃ err, resolveName s number p file location r = .error err := by
    simp only [← hok]
    cases resolveName s number p file location r <;> simp
  constructor
  · intro h
    exact ⟨hnone.2 ⟨err, h⟩, resolveName_error h⟩
  · rintro ⟨h, rfl⟩
    obtain ⟨err, h⟩ := hnone.1 h
    rwa [← resolveName_error h]

end Looking

/-! ### Packages -/

section Packages

variable {s : Session} {number : Nat} {p : Linked} {c : Compiled} {o : Occurrence TypeName}
  {err : CompileError}

/-- **A reference that stands for nothing** is used here. -/
def Session.Unnamed (s : Session) (number : Nat) (p : Linked) (o : Occurrence TypeName)
    (r : Reference) : Prop :=
  o.type.leaf = .named r ∧ ∀ t, ¬ Names s number p o.definition.file r t

theorem resolveLeaf_written {file : Nat} {location : Location} {x : TypeName} {y : TypeUse}
    (h : resolveLeaf s number p file location x = .ok y) : y.written = x := by
  cases x with
  | builtin b =>
    cases h
    rfl
  | named r =>
    obtain ⟨t, -, h⟩ := bind_eq_ok_iff.1 h
    cases h
    rfl

theorem resolveLeaf_eq_error_iff (hs : s.Unambiguous) (hp : p.Unambiguous) :
    resolveLeaf s number p o.definition.file (p.placeOf o) o.type.leaf = .error err ↔
      ∃ r, s.Unnamed number p o r ∧
        err = .notFound (p.placeOf o) (p.missing o.definition.file r) := by
  unfold Session.Unnamed
  cases o.type.leaf with
  | builtin b => exact ⟨nofun, fun ⟨_, ⟨h, _⟩, _⟩ => nomatch h⟩
  | named r =>
    refine bind_pure_eq_error_iff.trans ((resolveName_eq_error_iff hs hp).trans ?_)
    simp

/-- **A package whose types have been resolved** is the same package but for what they were found
to be, and each is what its leaf has been resolved to. -/
theorem resolveTypes_ok (h : resolveTypes s number p = .ok c) :
    c.map TypeUse.written = p ∧ ∀ o ∈ c.occurrences, ∃ location,
      resolveLeaf s number p o.definition.file location o.type.leaf.written = .ok o.type.leaf := by
  obtain ⟨definitions, hdefinitions, h⟩ := bind_eq_ok_iff.1 h
  cases h
  obtain ⟨hmap, hall⟩ := forall_of_mapM (u := Declared.map TypeUse.written)
    (P := fun d => ∀ o ∈ d.occurrences, ∃ location,
      resolveLeaf s number p o.definition.file location o.type.leaf.written = .ok o.type.leaf)
    (fun d d' hd => by
      obtain ⟨body, hbody, hd⟩ := bind_eq_ok_iff.1 hd
      cases hd
      obtain ⟨hbody, hleaves⟩ := mapBody_ok (fun _ _ _ => resolveLeaf_written) hbody
      refine ⟨congrArg (Declared.mk d.name d.file) hbody, fun o ho => ?_⟩
      obtain ⟨x, hx, rfl⟩ := List.mem_map.1 ho
      exact ⟨_, hleaves x hx⟩) hdefinitions
  refine ⟨congrArg (PackageOf.mk p.id p.directory p.files) hmap, fun o ho => ?_⟩
  obtain ⟨d, hd, ho⟩ := List.mem_flatMap.1 ho
  exact hall d hd o ho

/-- **The types of a package are resolved** one after another, up to the first error. -/
theorem resolveTypes_eq_error_iff :
    resolveTypes s number p = .error err ↔
      StopsAt (fun o : Occurrence TypeName =>
        resolveLeaf s number p o.definition.file (p.placeOf o) o.type.leaf) p.occurrences err := by
  refine bind_pure_eq_error_iff.trans (mapM_eq_error_iff.trans (stopsAt_flatMap fun d _ err => ?_))
  refine bind_pure_eq_error_iff.trans (mapBody_eq_error_iff.trans ?_)
  exact stopsAt_map fun _ _ => Iff.rfl

/-- **Types can be resolved if every reference stands for something.** -/
theorem exists_resolveTypes_iff (hs : s.Unambiguous) (hp : p.Unambiguous) :
    (∃ c, resolveTypes s number p = .ok c) ↔
      ∀ o ∈ p.occurrences, ∀ r, ¬ s.Unnamed number p o r := by
  simp only [exists_ok_iff, ne_eq, resolveTypes_eq_error_iff, ← forall_ok_iff]
  refine forall₂_congr fun o _ => ?_
  simp only [resolveLeaf_eq_error_iff hs hp]
  constructor
  · intro h r hr
    exact h _ ⟨r, hr, rfl⟩
  · rintro h err ⟨r, hr, -⟩
    exact h r hr

/-- The error is that of the first reference that stands for nothing. -/
theorem resolveTypes_error (hs : s.Unambiguous) (hp : p.Unambiguous)
    (h : resolveTypes s number p = .error err) :
    ∃ before o after r, p.occurrences = before ++ o :: after ∧
      (∀ b ∈ before, ∀ r, ¬ s.Unnamed number p b r) ∧ s.Unnamed number p o r ∧
      err = .notFound (p.placeOf o) (p.missing o.definition.file r) := by
  obtain ⟨before, o, after, hoccurrences, hbefore, herr⟩ := resolveTypes_eq_error_iff.1 h
  obtain ⟨r, hr, rfl⟩ := (resolveLeaf_eq_error_iff hs hp).1 herr
  refine ⟨before, o, after, r, hoccurrences, fun b hb r' hr' => ?_, hr, rfl⟩
  obtain ⟨y, hy⟩ := hbefore b hb
  cases hy.symm.trans ((resolveLeaf_eq_error_iff hs hp).2 ⟨r', hr', rfl⟩)

end Packages

/-! ### What a draft says -/

section Reading

variable {t : FileTree} {directory : Path} {id : String} {d : Draft}

/-- **A package is what its files say**: there is one file of the package for each schema file of
its directory, with the imports in it, and one definition for each definition in these, in order. -/
def PackageOf.ReadFrom (t : FileTree) (d : Draft) : Prop :=
  ∃ parsed, ParsedFiles t d.directory parsed ∧ List.Forall₂ DraftedFrom parsed d.files ∧
    List.Forall₂ DeclaredFrom (numbered 0 parsed) d.definitions

theorem readFrom_of_draft (h : draft t directory id = .ok d) : d.ReadFrom t := by
  obtain ⟨parsed, hparsed, -, rfl, hfiles⟩ := exists_parsedFiles h
  exact ⟨parsed, hparsed, draftFiles_ok hfiles, draftFiles_declared hfiles⟩

theorem map_name_numbered (file : Nat) (parsed : List (Source × SchemaFile)) :
    (numbered file parsed).map (fun x => x.2.name) = declaredNames parsed := by
  induction parsed generalizing file with
  | nil => rfl
  | cons x parsed ih =>
    have hrest := ih (file + 1)
    rw [numbered] at hrest
    rw [numbered, List.zipIdx_cons, List.flatMap_cons, List.map_append, List.map_map, hrest,
      declaredNames_cons]
    rfl

theorem unambiguous_of_draft (h : draft t directory id = .ok d) : d.Unambiguous := by
  obtain ⟨parsed, -, -, -, hfiles⟩ := exists_parsedFiles h
  obtain ⟨hrules, -⟩ := (exists_draftFiles_iff ..).1 ⟨_, hfiles⟩
  constructor
  · have hnames : d.definitions.map Declared.name = declaredNames parsed := by
      rw [← map_name_numbered 0]
      exact map_eq_map_of_forall₂ ((draftFiles_declared hfiles).flip.imp fun _ _ h => h.1)
    rw [hnames]
    exact hrules.definitions
  · intro f hf
    obtain ⟨x, hx, -, -, himports⟩ := exists_of_forall₂ (draftFiles_ok hfiles) hf
    rw [himports, List.map_map]
    exact hrules.imports x hx

end Reading

/-! ### Sessions -/

section Sessions

variable {e : Surroundings} {s s₁ s' : Session} {task : Task} {ns : List Nat} {i : Nat}
  {c : Compiled} {p : Linked} {directory : Path} {id : String} {from? : Option Location}
  {err : CompileError}

/-- **What is recorded for the references of a package** are things that they stand for. -/
def Session.Records (s : Session) (i : Nat) (c : Compiled) : Prop :=
  ∀ o ∈ c.occurrences, ∀ r t, o.type.leaf = .named r t → Names s i c o.definition.file r t

/-- Names differ in finished packages, and what these have recorded is right. -/
structure Session.Resolved (s : Session) : Prop where
  unambiguous : s.Unambiguous
  records : ∀ i c, s.package? i = some c → s.Records i c

theorem names_map {τ σ : Type} (leaf : τ → σ) {q : PackageOf Nat τ} {file : Nat} {r : Reference}
    {t : Target} : Names s i (q.map leaf) file r t ↔ Names s i q file r t := by
  constructor
  · intro h
    cases h with
    | own h => exact .own ((PackageOf.declares_map ..).1 h)
    | imported hfile hlink hname hpackage h => exact .imported hfile hlink hname hpackage h
  · intro h
    cases h with
    | own h => exact .own ((PackageOf.declares_map ..).2 h)
    | imported hfile hlink hname hpackage h => exact .imported hfile hlink hname hpackage h

/-- What a reference stands for does not change while packages are added. -/
theorem Names.mono {τ : Type} {q : PackageOf Nat τ} {file : Nat} {r : Reference} {t : Target}
    (h : Names s i q file r t) (hs : ∀ i c, s.package? i = some c → s'.package? i = some c) :
    Names s' i q file r t := by
  cases h with
  | own h => exact .own h
  | imported hfile hlink hname hpackage h =>
    exact .imported hfile hlink hname (hs _ _ hpackage) h

/-- What a reference in a finished package stands for is a definition of that kind. -/
theorem Names.definition? {file : Nat} {r : Reference} {t : Target} (hc : s.package? i = some c)
    (h : Names s i c file r t) :
    ∃ d, s.definition? t.definition = some d ∧ d.kind? = some t.kind := by
  cases h with
  | own h =>
    obtain ⟨d, hd, -, hkind⟩ := h
    exact ⟨d, Option.bind_eq_some_iff.2 ⟨c, hc, hd⟩, hkind⟩
  | imported _ _ _ hpackage h =>
    obtain ⟨d, hd, -, hkind⟩ := h
    exact ⟨d, Option.bind_eq_some_iff.2 ⟨_, hpackage, hd⟩, hkind⟩

/-- **A package whose types have been resolved** has recorded what its references stand for. -/
theorem records_of_resolveTypes (hs : s.Unambiguous) (hp : p.Unambiguous)
    (h : resolveTypes s i p = .ok c) : s.Records i c := by
  obtain ⟨rfl, hleaves⟩ := resolveTypes_ok h
  intro o ho r t hleaf
  obtain ⟨location, hresolve⟩ := hleaves o ho
  rw [hleaf] at hresolve
  obtain ⟨t', hname, ht⟩ := bind_eq_ok_iff.1 hresolve
  cases ht
  exact (names_map _).1 ((resolveName_eq_ok_iff hs hp).1 hname)

theorem unambiguous_of_resolveTypes (hp : p.Unambiguous) (h : resolveTypes s i p = .ok c) :
    c.Unambiguous := by
  rw [← (resolveTypes_ok h).1] at hp
  exact (PackageOf.unambiguous_map _ _).1 hp

namespace Session.Resolved

theorem empty : Session.empty.Resolved := ⟨nofun, nofun⟩

theorem start (hs : s.Resolved) (d : Draft) : (s.start d).Resolved := by
  have hsame (i : Nat) : (s.start d).package? i = s.package? i := package?_start s d i
  refine ⟨fun i c hc => hs.unambiguous i c (hsame i ▸ hc), fun i c hc o ho r t hleaf => ?_⟩
  exact (hs.records i c (hsame i ▸ hc) o ho r t hleaf).mono fun i c hc => (hsame i).trans hc

/-- A package is finished with its types resolved. -/
theorem finish (hs : s.Resolved) {d : Draft} (hi : s.entries[i]? = some (.started d))
    (hp : p.Unambiguous) (h : resolveTypes s i p = .ok c) : (s.finish i c).Resolved := by
  have hlt := (List.getElem?_eq_some_iff.1 hi).1
  have hkeep (j : Nat) (q : Compiled) (hq : s.package? j = some q) :
      (s.finish i c).package? j = some q := package?_finish_of_some hi hq
  constructor
  · intro j q hq
    rw [package?_finish hlt] at hq
    split at hq
    · cases hq
      exact unambiguous_of_resolveTypes hp h
    · exact hs.unambiguous j q hq
  · intro j q hq
    rw [package?_finish hlt] at hq
    split at hq
    · next hj =>
      cases hq
      subst hj
      exact fun o ho r t hleaf =>
        (records_of_resolveTypes hs.unambiguous hp h o ho r t hleaf).mono hkeep
    · exact fun o ho r t hleaf => (hs.records j q hq o ho r t hleaf).mono hkeep

end Session.Resolved

/-- **Compiling resolves types**, and leaves those alone that have been resolved. -/
theorem Compiles.resolved (h : Compiles e s task ns s') (hs : s.Resolved) : s'.Resolved := by
  induction h with
  | known => exact hs
  | @fresh s s₁ s' directory id from? d p hnew hdraft himports hlinks hconclude ih =>
    obtain ⟨c, hresolve, rfl, -⟩ := conclude_ok hconclude
    have hp := PackageOf.unambiguous_of_unlinked (hlinks ▸ unambiguous_of_draft hdraft)
    exact (ih (hs.start d)).finish himports.started hp hresolve
  | done => exact hs
  | next _ _ _ ihPackage ihRest => exact ihRest (ihPackage hs)

theorem Session.Reachable.resolved (h : s.Reachable) : s.Resolved :=
  h.keeps .empty fun _ hcompiles => hcompiles.resolved

/-- **Every package that is added is what its files say**, but for what its links have led to and
its types have been found to be. -/
theorem Compiles.readFrom (h : Compiles e s task ns s') (hle : s.entries.length ≤ i)
    (hc : s'.package? i = some c) : (c.map TypeUse.written).unlinked.ReadFrom e.tree := by
  induction h with
  | known => exact absurd (Session.lt_length_of_package? hc) (Nat.not_lt.2 hle)
  | @fresh s s₁ s' directory id from? d p hnew hdraft himports hlinks hconclude ih =>
    obtain ⟨c', hresolve, rfl, -⟩ := conclude_ok hconclude
    rw [Session.package?_finish (List.getElem?_eq_some_iff.1 himports.started).1] at hc
    split at hc
    · cases hc
      rw [(resolveTypes_ok hresolve).1, hlinks]
      exact readFrom_of_draft hdraft
    · next hne =>
      refine ih ?_ hc
      rw [Session.length_start]
      exact Nat.lt_of_le_of_ne hle (Ne.symm hne)
  | done => exact absurd (Session.lt_length_of_package? hc) (Nat.not_lt.2 hle)
  | @next s s₁ s' location id place n rest targets hplace hpackage hrest ihPackage ihRest =>
    rcases Nat.lt_or_ge i s₁.entries.length with hi | hi
    · refine ihPackage hle ?_
      rw [Session.package?_eq_some_iff] at hc ⊢
      rwa [← hrest.grows.getElem? hi]
    · exact ihRest hi hc

/-! ### Where a call fails -/

/-- **While a task is done, another one is come by**, in the session that there is then. -/
inductive ComesTo (e : Surroundings) : Session → Task → Session → Task → Prop where
  /-- The task itself. -/
  | here {s : Session} {task : Task} : ComesTo e s task s task
  /-- A new package is started and its imports are followed. -/
  | imports {s s' : Session} {directory : Path} {id : String} {from? : Option Location} {d : Draft}
      {task : Task} (hnew : s.indexOf? id = none) (hdraft : draft e.tree directory id = .ok d)
      (h : ComesTo e (s.start d) (.imports d.wanted) s' task) :
      ComesTo e s (.package directory id from?) s' task
  /-- The package of an import is seen to. -/
  | first {s s' : Session} {location : Location} {id : String} {place : Path}
      {rest : List (Location × String)} {task : Task} (hplace : e.directoryOf? id = some place)
      (h : ComesTo e s (.package place id (some location)) s' task) :
      ComesTo e s (.imports ((location, id) :: rest)) s' task
  /-- The package of an import has been seen to, and the others follow. -/
  | later {s s₁ s' : Session} {location : Location} {id : String} {place : Path} {n : Nat}
      {rest : List (Location × String)} {task : Task} (hplace : e.directoryOf? id = some place)
      (hpackage : Compiles e s (.package place id (some location)) [n] s₁)
      (h : ComesTo e s₁ (.imports rest) s' task) :
      ComesTo e s (.imports ((location, id) :: rest)) s' task

/-- What fails on the way fails the task. -/
theorem ComesTo.fails {s₂ : Session} {task' : Task} (h : ComesTo e s task s₂ task')
    (hfails : Fails e s₂ task' err s') : Fails e s task err s' := by
  induction h with
  | here => exact hfails
  | imports hnew hdraft _ ih => exact .imports hnew hdraft (ih hfails)
  | first hplace _ ih => exact .first hplace (ih hfails)
  | later hplace hpackage _ ih => exact .later hplace hpackage (ih hfails)

/-- **The imports of a new package have been followed**: from the session `s` they have led to `p`,
and the session is `s₁` then. -/
structure Linking (e : Surroundings) (s : Session) (directory : Path) (id : String) (p : Linked)
    (s₁ : Session) : Prop where
  new : s.indexOf? id = none
  drafted : draft e.tree directory id = .ok p.unlinked
  followed : Compiles e (s.start p.unlinked) (.imports p.unlinked.wanted) p.targets s₁

namespace Linking

theorem unambiguous (h : Linking e s directory id p s₁) : p.Unambiguous :=
  PackageOf.unambiguous_of_unlinked (unambiguous_of_draft h.drafted)

theorem fails_of_resolveTypes (h : Linking e s directory id p s₁)
    (hresolve : resolveTypes s₁ s.entries.length p = .error err) :
    Fails e s (.package directory id from?) err s₁ := by
  refine .conclusion h.new h.drafted h.followed rfl ?_
  rw [conclude_eq, hresolve]

end Linking

/-- On the way to a package, types are resolved as before. -/
theorem ComesTo.resolved {s₂ : Session} {task' : Task} (h : ComesTo e s task s₂ task')
    (hs : s.Resolved) : s₂.Resolved := by
  induction h with
  | here => exact hs
  | @imports s _ _ _ _ d _ _ _ _ ih => exact ih (hs.start d)
  | first _ _ ih => exact ih hs
  | later _ hpackage _ ih => exact ih (hpackage.resolved hs)

/-- A call fails as the rules say, and leaves the session as it was. -/
theorem Fails.attempt {given : Path} (hs : s.Settled) (h : Fails e s (e.call given) err s') :
    s.attempt e given = (.error err, s) := by
  rcases attempt_cases s e given with ⟨n, s₂, -, hcompiles⟩ | ⟨err', s₂, hattempt, hfails⟩
  · exact absurd h hcompiles.not_fails
  · obtain ⟨rfl, rfl⟩ := h.unique hfails
    rw [hattempt, hs.fails h]

/-! ### A sample -/

/-- A directory `x` whose file declares the enum `B`, and a directory `c` with one file, below the
only import root. -/
def Surroundings.named (text : String) : Surroundings where
  tree := ⟨[(.ofNames ["w"], .directory), (.ofNames ["w", "c"], .directory),
    (.ofNames ["w", "c", "m.spec"], .file text.toUTF8), (.ofNames ["w", "x"], .directory),
    (.ofNames ["w", "x", "m.spec"], .file "enum B { N = 0; }".toUTF8)]⟩
  workingDirectory := .ofNames ["w"]
  importPaths := []

section Named

variable {κ τ : Type}

/-- The package `x`. -/
def PackageOf.namedImported : PackageOf κ τ :=
  ⟨"x", .ofNames ["w", "x"], [⟨"m.spec", .ofNames ["w", "x", "m.spec"], [], []⟩],
    [⟨"B", 0, .enum [⟨"N", 0⟩]⟩]⟩

/-- The package `c`, whose import has led to `package`, with the types of its fields. -/
def PackageOf.namedImporting (package : κ) (a b : τ) : PackageOf κ τ :=
  ⟨"c", .ofNames ["w", "c"], [⟨"m.spec", .ofNames ["w", "c", "m.spec"], [⟨"x", "x", package⟩], []⟩],
    [⟨"A", 0, .message [⟨"a", ⟨1, a⟩, 1⟩, ⟨"b", ⟨0, b⟩, 2⟩]⟩]⟩

end Named

/-- The package `c` with its types as they are written, the second one a type of `x`. -/
def PackageOf.namedWritten {κ : Type} (package : κ) (type : String) : PackageOf κ TypeName :=
  .namedImporting package (.named ⟨none, "A"⟩) (.named ⟨some "x", type⟩)

/-- The package `c` with its types resolved. -/
def PackageOf.namedResolved : Compiled :=
  .namedImporting 1 (.named ⟨none, "A"⟩ ⟨.message, ⟨0, 0⟩, none⟩)
    (.named ⟨some "x", "B"⟩ ⟨.enum, ⟨1, 0⟩, some 0⟩)

/-- The session in which `c` has been compiled, and `x` because of it. -/
def Session.named : Session :=
  ⟨[.finished .namedResolved, .finished .namedImported], [("x", 1), ("c", 0)]⟩

/-- A file both of whose references stand for something. -/
def Surroundings.namedRight : Surroundings := .named "import \"x\" message A { a []A 1; b x.B 2; }"

/-- A file the second of whose references stands for nothing. -/
def Surroundings.namedWrong : Surroundings := .named "import \"x\" message A { a []A 1; b x.C 2; }"

/-- What is parsed in the file of `c`. -/
def namedFile (type : String) : SchemaFile :=
  ⟨[⟨none, "x"⟩], [], [⟨"A", .message [⟨"a", ⟨1, .named ⟨none, "A"⟩⟩, 1⟩,
    ⟨"b", ⟨0, .named ⟨some "x", type⟩⟩, 2⟩]⟩]⟩

theorem draft_namedRight :
    draft Surroundings.namedRight.tree (.ofNames ["w", "c"]) "c" = .ok (.namedWritten () "B") :=
  draft_of_single ⟨"m.spec", .ofNames ["w", "c", "m.spec"],
    "import \"x\" message A { a []A 1; b x.B 2; }"⟩ rfl rfl rfl rfl
    (by cbv : parse "import \"x\" message A { a []A 1; b x.B 2; }" = .ok (namedFile "B")) (by cbv)

theorem draft_namedWrong :
    draft Surroundings.namedWrong.tree (.ofNames ["w", "c"]) "c" = .ok (.namedWritten () "C") :=
  draft_of_single ⟨"m.spec", .ofNames ["w", "c", "m.spec"],
    "import \"x\" message A { a []A 1; b x.C 2; }"⟩ rfl rfl rfl rfl
    (by cbv : parse "import \"x\" message A { a []A 1; b x.C 2; }" = .ok (namedFile "C")) (by cbv)

theorem call_named (text : String) :
    (Surroundings.named text).call (.ofText "c") = .package (.ofNames ["w", "c"]) "c" none := by
  cbv

theorem readText_named (text : String) :
    (Surroundings.named text).tree.readText .root (.ofNames ["w", "c", "m.spec"]) = .ok text := by
  have hfile : (Surroundings.named text).tree.readFile .root (.ofNames ["w", "c", "m.spec"]) =
      .ok text.toUTF8 := rfl
  have hdecoded : String.fromUTF8? text.toUTF8 = some text := dif_pos text.isValidUTF8
  refine bind_eq_ok_iff.2 ⟨_, hfile, ?_⟩
  rw [hdecoded]

theorem directoryOf?_named (text : String) :
    (Surroundings.named text).directoryOf? "x" = some (.ofNames ["w", "x"]) := by
  cbv

/-- The session in which the import of `c` has led to `x`. -/
def Session.namedLinked (type : String) : Session :=
  ((Session.empty.start (.namedWritten () type)).start .namedImported).finish 1 .namedImported

theorem compiles_named (text type : String) :
    Compiles (.named text) (Session.empty.start (.namedWritten () type))
      (.imports [(.ofFile "c" "m.spec", "x")]) [1] (.namedLinked type) := by
  have hdraft : draft (Surroundings.named text).tree (.ofNames ["w", "x"]) "x" =
      .ok .namedImported :=
    draft_of_single ⟨"m.spec", .ofNames ["w", "x", "m.spec"], "enum B { N = 0; }"⟩ rfl rfl rfl rfl
      (by cbv : parse "enum B { N = 0; }" = .ok ⟨[], [], [⟨"B", .enum [⟨"N", 0⟩]⟩]⟩) (by cbv)
  exact .next (directoryOf?_named text) (.fresh (p := .namedImported) rfl hdraft .done rfl rfl)
    .done

theorem attempt_named :
    Session.empty.attempt .namedRight (.ofText "c") = (.ok 0, .named) := by
  refine Compiles.attempt (call_named _ ▸ ?_)
  exact .fresh (p := .namedWritten 1 "B") rfl draft_namedRight (compiles_named _ _) rfl rfl

/-! ### Calls -/

/-- **References stand for what is recorded for them.** After a call that succeeds, whatever stood
in the session before still does, names differ in every package of the session, and what a package
has recorded for a reference is the one thing that the reference stands for there; the packages that
are new are what their files say, with every type in its place. If, instead, the imports of a
package that a call comes to have been followed, and a reference in it stands for nothing, the call
fails, with the place of the first such reference in the order of definitions. -/
theorem references_resolve (h : s.Reachable) (e : Surroundings) (given : Path) :
    (∀ n s', s.attempt e given = (.ok n, s') →
      (∀ i c, s.package? i = some c → s'.package? i = some c) ∧
      (∀ i c, s'.package? i = some c → c.Unambiguous ∧
        ∀ o ∈ c.occurrences, ∀ r t, o.type.leaf = .named r t →
          ∀ t', Names s' i c o.definition.file r t' ↔ t' = t) ∧
      ∀ i c, s.entries.length ≤ i → s'.package? i = some c →
        (c.map TypeUse.written).unlinked.ReadFrom e.tree) ∧
    ∀ s₂ directory id from? p s₁,
      ComesTo e s (e.call given) s₂ (.package directory id from?) →
      Linking e s₂ directory id p s₁ →
      (∃ o ∈ p.occurrences, ∃ r, s₁.Unnamed s₂.entries.length p o r) →
      ∃ before o after r, p.occurrences = before ++ o :: after ∧
        (∀ b ∈ before, ∀ r, ¬ s₁.Unnamed s₂.entries.length p b r) ∧
        s₁.Unnamed s₂.entries.length p o r ∧
        s.attempt e given =
          (.error (.notFound (p.placeOf o) (p.missing o.definition.file r)), s) := by
  constructor
  · intro n s' hattempt
    rcases attempt_cases s e given with ⟨m, s'', hattempt', h'⟩ | ⟨err, s'', hattempt', -⟩
    · cases hattempt.symm.trans hattempt'
      have hs' := h'.resolved h.resolved
      refine ⟨fun i c hc => h'.grows.package? hc, fun i c hc => ?_, fun i c => h'.readFrom⟩
      refine ⟨hs'.unambiguous i c hc, fun o ho r t hleaf t' => ?_⟩
      have hname := hs'.records i c hc o ho r t hleaf
      exact ⟨fun hname' => hname'.unique hs'.unambiguous (hs'.unambiguous i c hc) hname,
        fun ht => ht ▸ hname⟩
    · cases hattempt.symm.trans hattempt'
  · intro s₂ directory id from? p s₁ hcomes hlinking hunnamed
    have hs₁ := (hlinking.followed.resolved ((hcomes.resolved h.resolved).start _)).unambiguous
    have hp := hlinking.unambiguous
    cases hresolve : resolveTypes s₁ s₂.entries.length p with
    | ok c =>
      obtain ⟨o, ho, r, hr⟩ := hunnamed
      exact absurd hr ((exists_resolveTypes_iff hs₁ hp).1 ⟨c, hresolve⟩ o ho r)
    | error err =>
      obtain ⟨before, o, after, r, hoccurrences, hbefore, hr, rfl⟩ :=
        resolveTypes_error hs₁ hp hresolve
      refine ⟨before, o, after, r, hoccurrences, hbefore, hr, ?_⟩
      exact (hcomes.fails (hlinking.fails_of_resolveTypes hresolve)).attempt h.settled

theorem references_resolve_named :
    Session.empty.Reachable ∧
      Session.empty.attempt .namedRight (.ofText "c") = (.ok 0, .named) ∧
      (∀ t, Names .named 0 .namedResolved 0 ⟨some "x", "B"⟩ t ↔
        t = ⟨.enum, ⟨1, 0⟩, some 0⟩) ∧
      Session.empty.attempt .namedWrong (.ofText "c") =
        (.error (.notFound ⟨"c", "m.spec", some "A", some "b"⟩ (.type ⟨some "x", "C"⟩)),
          .empty) := by
  obtain ⟨hright, -⟩ := references_resolve .empty .namedRight (.ofText "c")
  obtain ⟨-, hresolved, -⟩ := hright 0 .named attempt_named
  obtain ⟨-, hnames⟩ := hresolved 0 .namedResolved rfl
  obtain ⟨-, hwrong⟩ := references_resolve .empty .namedWrong (.ofText "c")
  have hlinking : Linking .namedWrong .empty (.ofNames ["w", "c"]) "c" (.namedWritten 1 "C")
      (.namedLinked "C") := ⟨rfl, draft_namedWrong, compiles_named _ _⟩
  have hlinked := (hlinking.followed.resolved (Session.Resolved.empty.start _)).unambiguous
  have hunnamed : ∃ o ∈ (PackageOf.namedWritten 1 "C").occurrences, ∃ r,
      (Session.namedLinked "C").Unnamed 0 (.namedWritten 1 "C") o r := by
    by_contra hnot
    push Not at hnot
    obtain ⟨c, hc⟩ := (exists_resolveTypes_iff hlinked hlinking.unambiguous).2 hnot
    exact nomatch hc
  have hcomes : ComesTo .namedWrong .empty (Surroundings.namedWrong.call (.ofText "c")) .empty
      (.package (.ofNames ["w", "c"]) "c" none) := call_named _ ▸ .here
  obtain ⟨before, o, after, r, hoccurrences, -, ⟨hleaf, hnot⟩, hattempt⟩ :=
    hwrong _ _ _ _ _ _ hcomes hlinking hunnamed
  refine ⟨.empty, attempt_named, ?_, ?_⟩
  · exact hnames ⟨_, "b", _⟩ (.tail _ (.head _)) ⟨some "x", "B"⟩ _ rfl
  · rcases before with _ | ⟨b, _ | ⟨b', before⟩⟩
    · cases hoccurrences
      cases hleaf
      exact absurd (.own ⟨_, rfl, rfl, rfl⟩) (hnot ⟨.message, ⟨0, 0⟩, none⟩)
    · cases hoccurrences
      cases hleaf
      exact hattempt
    · have hlength : 2 = (b :: b' :: before ++ o :: after).length :=
        congrArg List.length hoccurrences
      simp only [List.length_append, List.length_cons] at hlength
      omega

end Sessions

end Backwire.Package
