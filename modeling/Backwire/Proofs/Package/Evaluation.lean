import Backwire.Proofs.Package.Drafting
import Backwire.Proofs.Package.Growth

/-!
# Compiling, rule by rule

`visit` follows imports with a list of those that are left, which bounds how deep it can go. The
rules `Compiles` and `Fails` say the same without such a list: what is done with a package depends
on the session alone, and a package the session has is never compiled again. A derivation by the
rules is finite, so where there is one, following imports comes to an end.

There is always one, and what it leads to is what `visit` yields (`visit_leads`); there are never
two that lead to different ends (`Compiles.unique`, `Fails.unique`, `Compiles.not_fails`). The list
never decides anything: an import that is not in it any more is in the session.
-/

namespace Backwire.Package

open Schema
open Wire (bind_eq_ok_iff pure_eq_ok_iff)

/-! ### What is followed -/

section Links

variable {κ τ : Type}

/-- The imports of a package in the order of files and of their texts, each with the place of its
file. -/
def PackageOf.wanted (p : PackageOf κ τ) : List (Location × String) :=
  p.files.flatMap fun f => f.imports.map fun l => (Location.ofFile p.id f.name, l.id)

/-- Where the imports of a package have led to, in the same order. -/
def PackageOf.targets (p : PackageOf κ τ) : List κ :=
  p.files.flatMap fun f => f.imports.map Link.package

/-- A link, whatever it has led to. -/
def Link.unlinked (l : Link κ) : Link Unit := ⟨l.id, l.name, ()⟩

/-- A file, whatever its links have led to. -/
def File.unlinked (f : File κ) : File Unit :=
  ⟨f.name, f.path, f.imports.map Link.unlinked, f.options⟩

/-- A package, whatever its links have led to. -/
def PackageOf.unlinked (p : PackageOf κ τ) : PackageOf Unit τ :=
  ⟨p.id, p.directory, p.files.map File.unlinked, p.definitions⟩

end Links

/-- What is to be done: to see to a package that the file `from?` imports, or to follow imports. -/
inductive Task where
  | package (directory : Path) (id : String) (from? : Option Location)
  | imports (wanted : List (Location × String))

/-! ### The rules -/

/-- **Compiling succeeds**: from the session `s` the task yields these packages, and the session is
`s'` then. -/
inductive Compiles (e : Surroundings) : Session → Task → List Nat → Session → Prop where
  /-- The session has the package. -/
  | known {s : Session} {directory : Path} {id : String} {from? : Option Location} {i : Nat}
      (h : s.finished? id = some i) : Compiles e s (.package directory id from?) [i] s
  /-- The package is new: it is started, its imports are followed, and it is finished. -/
  | fresh {s s₁ s' : Session} {directory : Path} {id : String} {from? : Option Location} {d : Draft}
      {p : Linked} (hnew : s.indexOf? id = none) (hdraft : draft e.tree directory id = .ok d)
      (himports : Compiles e (s.start d) (.imports d.wanted) p.targets s₁) (hlinks : p.unlinked = d)
      (hconclude : conclude s.entries.length p s₁ = .ok () s') :
      Compiles e s (.package directory id from?) [s.entries.length] s'
  /-- All imports have been followed. -/
  | done {s : Session} : Compiles e s (.imports []) [] s
  /-- An import leads to a package in a directory, and the other imports are followed then. -/
  | next {s s₁ s' : Session} {location : Location} {id : String} {place : Path} {n : Nat}
      {rest : List (Location × String)} {targets : List Nat}
      (hplace : e.directoryOf? id = some place)
      (hpackage : Compiles e s (.package place id (some location)) [n] s₁)
      (hrest : Compiles e s₁ (.imports rest) targets s') :
      Compiles e s (.imports ((location, id) :: rest)) (n :: targets) s'

/-- **Compiling fails**: from the session `s` the task leads to this error, and the session is `s'`
then. -/
inductive Fails (e : Surroundings) : Session → Task → CompileError → Session → Prop where
  /-- The imports of the package are being followed. -/
  | loop {s : Session} {directory : Path} {id : String} {from? : Option Location}
      (hknown : (s.indexOf? id).isSome) (hstarted : s.finished? id = none) :
      Fails e s (.package directory id from?) (s.loopError id from?) s
  /-- The package is new and has no draft. -/
  | drafting {s : Session} {directory : Path} {id : String} {from? : Option Location}
      {err : CompileError} (hnew : s.indexOf? id = none)
      (hdraft : draft e.tree directory id = .error err) :
      Fails e s (.package directory id from?) err s
  /-- An import of the new package fails. -/
  | imports {s s' : Session} {directory : Path} {id : String} {from? : Option Location} {d : Draft}
      {err : CompileError} (hnew : s.indexOf? id = none)
      (hdraft : draft e.tree directory id = .ok d)
      (himports : Fails e (s.start d) (.imports d.wanted) err s') :
      Fails e s (.package directory id from?) err s'
  /-- The new package cannot be finished. -/
  | conclusion {s s₁ s' : Session} {directory : Path} {id : String} {from? : Option Location}
      {d : Draft} {p : Linked} {err : CompileError} (hnew : s.indexOf? id = none)
      (hdraft : draft e.tree directory id = .ok d)
      (himports : Compiles e (s.start d) (.imports d.wanted) p.targets s₁) (hlinks : p.unlinked = d)
      (hconclude : conclude s.entries.length p s₁ = .error err s') :
      Fails e s (.package directory id from?) err s'
  /-- An import leads nowhere. -/
  | missing {s : Session} {location : Location} {id : String} {rest : List (Location × String)}
      (hplace : e.directoryOf? id = none) :
      Fails e s (.imports ((location, id) :: rest)) (.notFound location (.package id)) s
  /-- The package of an import fails. -/
  | first {s s' : Session} {location : Location} {id : String} {place : Path}
      {rest : List (Location × String)} {err : CompileError}
      (hplace : e.directoryOf? id = some place)
      (hpackage : Fails e s (.package place id (some location)) err s') :
      Fails e s (.imports ((location, id) :: rest)) err s'
  /-- An import leads to a package, and one of the others fails. -/
  | later {s s₁ s' : Session} {location : Location} {id : String} {place : Path} {n : Nat}
      {rest : List (Location × String)} {err : CompileError}
      (hplace : e.directoryOf? id = some place)
      (hpackage : Compiles e s (.package place id (some location)) [n] s₁)
      (hrest : Fails e s₁ (.imports rest) err s') :
      Fails e s (.imports ((location, id) :: rest)) err s'

variable {e : Surroundings} {s s₁ s' s'' : Session} {task : Task} {ns ms : List Nat}
  {err err' : CompileError} {directory : Path} {id : String} {from? : Option Location}

/-! ### The rules lead to one end -/

theorem Session.finished?_eq_some_iff {i : Nat} :
    s.finished? id = some i ↔ s.indexOf? id = some i ∧ (s.package? i).isSome :=
  Option.filter_eq_some_iff

theorem Session.finished?_eq_none (h : s.indexOf? id = none) : s.finished? id = none := by
  rw [finished?, h]
  rfl

section Links

variable {κ τ : Type}

theorem links_eq {ls ms : List (Link κ)} (h : ls.map Link.unlinked = ms.map Link.unlinked)
    (htargets : ls.map Link.package = ms.map Link.package) : ls = ms := by
  induction ls generalizing ms with
  | nil => exact (List.map_eq_nil_iff.1 h.symm).symm
  | cons l ls ih =>
    obtain ⟨m, ms, rfl⟩ := List.exists_cons_of_ne_nil (l := ms) (by rintro rfl; cases h)
    obtain ⟨hl, h⟩ := List.cons.inj h
    obtain ⟨hpackage, htargets⟩ := List.cons.inj htargets
    have hlm : l = m := by
      cases l
      cases hl
      cases hpackage
      rfl
    rw [hlm, ih h htargets]

theorem files_eq {fs gs : List (File κ)} (h : fs.map File.unlinked = gs.map File.unlinked)
    (htargets : (fs.flatMap fun f => f.imports.map Link.package) =
      gs.flatMap fun f => f.imports.map Link.package) : fs = gs := by
  induction fs generalizing gs with
  | nil => exact (List.map_eq_nil_iff.1 h.symm).symm
  | cons f fs ih =>
    obtain ⟨g, gs, rfl⟩ := List.exists_cons_of_ne_nil (l := gs) (by rintro rfl; cases h)
    obtain ⟨hf, h⟩ := List.cons.inj h
    have himports : f.imports.map Link.unlinked = g.imports.map Link.unlinked :=
      congrArg File.imports hf
    have hlength : (f.imports.map Link.package).length = (g.imports.map Link.package).length := by
      simpa using congrArg List.length himports
    obtain ⟨hfirst, hrest⟩ := List.append_inj htargets hlength
    have himports := links_eq himports hfirst
    have hfg : f = g := by
      obtain ⟨name, path, imports, options⟩ := f
      obtain ⟨name', path', imports', options'⟩ := g
      obtain ⟨rfl, rfl, -, rfl⟩ : name = name' ∧ path = path' ∧ _ ∧ options = options' :=
        File.mk.inj hf
      exact congrArg (File.mk name path · options) himports
    rw [hfg, ih h hrest]

/-- A package is told by what stands in it and where its imports have led to. -/
theorem PackageOf.eq_of_unlinked {p q : PackageOf κ τ} (h : p.unlinked = q.unlinked)
    (htargets : p.targets = q.targets) : p = q := by
  have hfiles : p.files = q.files := files_eq (congrArg PackageOf.files h) htargets
  obtain ⟨id, directory, files, definitions⟩ := p
  obtain ⟨id', directory', files', definitions'⟩ := q
  obtain ⟨rfl, rfl, -, rfl⟩ : id = id' ∧ directory = directory' ∧ _ ∧ definitions = definitions' :=
    PackageOf.mk.inj h
  exact congrArg (PackageOf.mk id directory · definitions) hfiles

end Links

theorem Compiles.unique (h : Compiles e s task ns s') (h' : Compiles e s task ms s'') :
    ns = ms ∧ s' = s'' := by
  induction h generalizing ms s'' with
  | known h =>
    cases h' with
    | known h' => exact ⟨by rw [Option.some.inj (h.symm.trans h')], rfl⟩
    | fresh hnew => exact absurd h (by rw [Session.finished?_eq_none hnew]; nofun)
  | fresh hnew hdraft _ hlinks hconclude ih =>
    cases h' with
    | known h' => exact absurd h' (by rw [Session.finished?_eq_none hnew]; nofun)
    | fresh _ hdraft' himports' hlinks' hconclude' =>
      cases hdraft.symm.trans hdraft'
      obtain ⟨htargets, rfl⟩ := ih himports'
      obtain rfl := PackageOf.eq_of_unlinked (hlinks.trans hlinks'.symm) htargets
      cases hconclude.symm.trans hconclude'
      exact ⟨rfl, rfl⟩
  | done =>
    cases h'
    exact ⟨rfl, rfl⟩
  | next hplace _ _ ihPackage ihRest =>
    cases h' with
    | next hplace' hpackage' hrest' =>
      cases hplace.symm.trans hplace'
      obtain ⟨hn, rfl⟩ := ihPackage hpackage'
      obtain ⟨rfl, rfl⟩ := ihRest hrest'
      cases hn
      exact ⟨rfl, rfl⟩

theorem Compiles.not_fails (h : Compiles e s task ns s') : ¬ Fails e s task err s'' := by
  intro h'
  induction h generalizing err s'' with
  | known h =>
    obtain ⟨hindex, -⟩ := Session.finished?_eq_some_iff.1 h
    cases h' with
    | loop _ hstarted => exact nomatch h.symm.trans hstarted
    | drafting hnew => exact nomatch hindex.symm.trans hnew
    | imports hnew => exact nomatch hindex.symm.trans hnew
    | conclusion hnew => exact nomatch hindex.symm.trans hnew
  | fresh hnew hdraft himports hlinks hconclude ih =>
    cases h' with
    | loop hknown => exact absurd hknown (by rw [hnew]; nofun)
    | drafting _ hdraft' => exact nomatch hdraft.symm.trans hdraft'
    | imports _ hdraft' himports' =>
      cases hdraft.symm.trans hdraft'
      exact ih himports'
    | conclusion _ hdraft' himports' hlinks' hconclude' =>
      cases hdraft.symm.trans hdraft'
      obtain ⟨htargets, rfl⟩ := himports.unique himports'
      obtain rfl := PackageOf.eq_of_unlinked (hlinks.trans hlinks'.symm) htargets
      exact nomatch hconclude.symm.trans hconclude'
  | done => cases h'
  | next hplace hpackage _ ihPackage ihRest =>
    cases h' with
    | missing hplace' => exact nomatch hplace.symm.trans hplace'
    | first hplace' hpackage' =>
      cases hplace.symm.trans hplace'
      exact ihPackage hpackage'
    | later hplace' hpackage' hrest' =>
      cases hplace.symm.trans hplace'
      obtain ⟨-, rfl⟩ := hpackage.unique hpackage'
      exact ihRest hrest'

theorem Fails.unique (h : Fails e s task err s') (h' : Fails e s task err' s'') :
    err = err' ∧ s' = s'' := by
  induction h generalizing err' s'' with
  | loop hknown =>
    cases h' with
    | loop => exact ⟨rfl, rfl⟩
    | drafting hnew => exact absurd hknown (by rw [hnew]; nofun)
    | imports hnew => exact absurd hknown (by rw [hnew]; nofun)
    | conclusion hnew => exact absurd hknown (by rw [hnew]; nofun)
  | drafting hnew hdraft =>
    cases h' with
    | loop hknown => exact absurd hknown (by rw [hnew]; nofun)
    | drafting _ hdraft' =>
      cases hdraft.symm.trans hdraft'
      exact ⟨rfl, rfl⟩
    | imports _ hdraft' => exact nomatch hdraft.symm.trans hdraft'
    | conclusion _ hdraft' => exact nomatch hdraft.symm.trans hdraft'
  | imports hnew hdraft himports ih =>
    cases h' with
    | loop hknown => exact absurd hknown (by rw [hnew]; nofun)
    | drafting _ hdraft' => exact nomatch hdraft.symm.trans hdraft'
    | imports _ hdraft' himports' =>
      cases hdraft.symm.trans hdraft'
      exact ih himports'
    | conclusion _ hdraft' himports' =>
      cases hdraft.symm.trans hdraft'
      exact absurd himports himports'.not_fails
  | conclusion hnew hdraft himports hlinks hconclude =>
    cases h' with
    | loop hknown => exact absurd hknown (by rw [hnew]; nofun)
    | drafting _ hdraft' => exact nomatch hdraft.symm.trans hdraft'
    | imports _ hdraft' himports' =>
      cases hdraft.symm.trans hdraft'
      exact absurd himports' himports.not_fails
    | conclusion _ hdraft' himports' hlinks' hconclude' =>
      cases hdraft.symm.trans hdraft'
      obtain ⟨htargets, rfl⟩ := himports.unique himports'
      obtain rfl := PackageOf.eq_of_unlinked (hlinks.trans hlinks'.symm) htargets
      cases hconclude.symm.trans hconclude'
      exact ⟨rfl, rfl⟩
  | missing hplace =>
    cases h' with
    | missing => exact ⟨rfl, rfl⟩
    | first hplace' => exact nomatch hplace.symm.trans hplace'
    | later hplace' => exact nomatch hplace.symm.trans hplace'
  | first hplace hpackage ih =>
    cases h' with
    | missing hplace' => exact nomatch hplace.symm.trans hplace'
    | first hplace' hpackage' =>
      cases hplace.symm.trans hplace'
      exact ih hpackage'
    | later hplace' hpackage' =>
      cases hplace.symm.trans hplace'
      exact absurd hpackage hpackage'.not_fails
  | later hplace hpackage _ ih =>
    cases h' with
    | missing hplace' => exact nomatch hplace.symm.trans hplace'
    | first hplace' hpackage' =>
      cases hplace.symm.trans hplace'
      exact absurd hpackage' hpackage.not_fails
    | later hplace' hpackage' hrest' =>
      cases hplace.symm.trans hplace'
      obtain ⟨-, rfl⟩ := hpackage.unique hpackage'
      exact ih hrest'

/-! ### The session only grows -/

theorem Compiling.bind_eq {α β : Type} (x : Compiling α) (f : α → Compiling β) :
    (x >>= f) s = match x s with
      | .ok a s' => f a s'
      | .error err s' => .error err s' := by
  change EStateM.bind x f s = _
  unfold EStateM.bind
  cases x s <;> rfl

theorem Compiling.map_eq {α β : Type} (f : α → β) (x : Compiling α) :
    (f <$> x) s = match x s with
      | .ok a s' => .ok (f a) s'
      | .error err s' => .error err s' := by
  change EStateM.map f x s = _
  unfold EStateM.map
  cases x s <;> rfl

theorem Compiling.require_eq {α : Type} (r : Except CompileError α) :
    Compiling.require r s = match r with
      | .ok a => .ok a s
      | .error err => .error err s := by
  cases r <;> rfl

/-- What concluding leads to: the types of the package are resolved, it is finished, and it is
checked then. -/
theorem conclude_eq (n : Nat) (p : Linked) :
    conclude n p s = match resolveTypes s n p with
      | .error err => .error err s
      | .ok c => match checkRules (s.finish n c) n c with
        | .error err => .error err (s.finish n c)
        | .ok () => .ok () (s.finish n c) := by
  change (Compiling.require (resolveTypes s n p) >>= _) s = _
  rw [Compiling.bind_eq, Compiling.require_eq]
  cases resolveTypes s n p with
  | error err => rfl
  | ok c =>
    change Compiling.require (checkRules (s.finish n c) n c) (s.finish n c) = _
    rw [Compiling.require_eq]
    dsimp only
    cases checkRules (s.finish n c) n c <;> rfl

/-- A package is finished with its types resolved, and keeps to the rules then. -/
theorem conclude_ok {n : Nat} {p : Linked} (h : conclude n p s = .ok () s') :
    ∃ c, resolveTypes s n p = .ok c ∧ s' = s.finish n c ∧ checkRules s' n c = .ok () := by
  rw [conclude_eq] at h
  split at h
  · cases h
  next c hc =>
  split at h
  · cases h
  · next hrules =>
    cases h
    exact ⟨c, hc, rfl, hrules⟩

theorem conclude_error {n : Nat} {p : Linked} (h : conclude n p s = .error err s') :
    s' = s ∨ ∃ c, s' = s.finish n c := by
  rw [conclude_eq] at h
  split at h
  · cases h
    exact .inl rfl
  next c _ =>
  split at h
  · cases h
    exact .inr ⟨c, rfl⟩
  · cases h

theorem Compiles.grows (h : Compiles e s task ns s') : s.Grows s' := by
  induction h with
  | known => exact .refl _
  | fresh hnew hdraft _ _ hconclude ih =>
    obtain ⟨rfl, -⟩ := draft_ok hdraft
    obtain ⟨c, -, rfl, -⟩ := conclude_ok hconclude
    exact .finish hnew ih c
  | done => exact .refl _
  | next _ _ _ ihPackage ihRest => exact ihPackage.trans ihRest

theorem Fails.grows (h : Fails e s task err s') : s.Grows s' := by
  induction h with
  | loop => exact .refl _
  | drafting => exact .refl _
  | imports hnew hdraft _ ih =>
    obtain ⟨rfl, -⟩ := draft_ok hdraft
    exact (Session.Grows.start hnew).trans ih
  | conclusion hnew hdraft himports _ hconclude =>
    obtain ⟨rfl, -⟩ := draft_ok hdraft
    rcases conclude_error hconclude with rfl | ⟨c, rfl⟩
    · exact (Session.Grows.start hnew).trans himports.grows
    · exact .finish hnew himports.grows c
  | missing => exact .refl _
  | first _ _ ih => exact ih
  | later _ hpackage _ ih => exact hpackage.grows.trans ih

/-! ### Following imports, as a function -/

section Following

variable {α β γ : Type} {m : Type → Type} [Monad m] [LawfulMonad m]

/-- Making something of each result is making it of all of them in the end. -/
theorem mapM_map (f : α → m β) (g : α → β → γ) (as : List α) :
    (as.mapM fun a => g a <$> f a) = List.zipWith g as <$> as.mapM f := by
  induction as with
  | nil => simp
  | cons a as ih => simp [List.mapM_cons, ih]

theorem mapM_flatMap (f : β → m γ) (g : α → List β) (as : List α) :
    (as.flatMap g).mapM f = do
      let css ← as.mapM fun a => (g a).mapM f
      return css.flatten := by
  induction as with
  | nil => simp
  | cons a as ih => simp [List.mapM_cons, List.mapM_append, ih]

/-- A link that has led to the package of this number. -/
def Link.to (l : Link Unit) (n : Nat) : Link Nat := ⟨l.id, l.name, n⟩

/-- A file whose links have led to the packages of these numbers. -/
def File.to (f : File Unit) (ns : List Nat) : File Nat :=
  ⟨f.name, f.path, List.zipWith Link.to f.imports ns, f.options⟩

/-- A draft whose links have led to the packages of these numbers, file by file. -/
def PackageOf.to (d : Draft) (nss : List (List Nat)) : Linked :=
  ⟨d.id, d.directory, List.zipWith File.to d.files nss, d.definitions⟩

/-- Where the imports of a draft lead, file by file. -/
def followFiles (follow : Location → String → Compiling Nat) (d : Draft) :
    Compiling (List (List Nat)) :=
  d.files.mapM fun f => f.imports.mapM fun l => follow (.ofFile d.id f.name) l.id

/-- Where imports lead, one after another. -/
def followAll (follow : Location → String → Compiling Nat) (wanted : List (Location × String)) :
    Compiling (List Nat) :=
  wanted.mapM fun w => follow w.1 w.2

theorem followLinks_eq (follow : Location → String → Compiling Nat) (d : Draft) :
    followLinks follow d = d.to <$> followFiles follow d := by
  unfold followLinks
  simp only [bind_pure_comp, mapM_map, Functor.map_map]
  rfl

/-- Going through the files is going through all imports. -/
theorem followAll_wanted (follow : Location → String → Compiling Nat) (d : Draft) :
    followAll follow d.wanted = List.flatten <$> followFiles follow d := by
  unfold followAll PackageOf.wanted
  rw [mapM_flatMap, bind_pure_comp]
  simp only [List.mapM_map]
  rfl

end Following

/-- Each result belongs to the member it was made for. -/
theorem forall₂_of_mapM {α β : Type} {f : α → Compiling β} {as : List α} {bs : List β}
    (h : (as.mapM f) s = .ok bs s') : List.Forall₂ (fun a b => ∃ s s', f a s = .ok b s') as bs := by
  induction as generalizing bs s with
  | nil =>
    cases h
    exact .nil
  | cons a as ih =>
    rw [List.mapM_cons, Compiling.bind_eq] at h
    split at h
    · next b s₁ hb =>
      rw [Compiling.bind_eq] at h
      split at h
      · next bs' s₂ hbs =>
        cases h
        exact .cons ⟨s, s₁, hb⟩ (ih hbs)
      · cases h
    · cases h

theorem links_to {ls : List (Link Unit)} {ns : List Nat} (h : ls.length = ns.length) :
    (List.zipWith Link.to ls ns).map Link.unlinked = ls ∧
      (List.zipWith Link.to ls ns).map Link.package = ns := by
  induction ls generalizing ns with
  | nil =>
    obtain rfl := List.length_eq_zero_iff.1 h.symm
    exact ⟨rfl, rfl⟩
  | cons l ls ih =>
    obtain ⟨n, ns, rfl⟩ := List.exists_cons_of_length_eq_add_one h.symm
    obtain ⟨hunlinked, htargets⟩ := ih (Nat.succ.inj h)
    rw [List.zipWith_cons_cons, List.map_cons, List.map_cons, hunlinked, htargets]
    exact ⟨rfl, rfl⟩

/-- A draft whose imports have led somewhere is still this draft. -/
theorem PackageOf.unlinked_to {d : Draft} {nss : List (List Nat)}
    (h : List.Forall₂ (fun f ns => f.imports.length = ns.length) d.files nss) :
    (d.to nss).unlinked = d ∧ (d.to nss).targets = nss.flatten := by
  have hfiles {fs : List (File Unit)} {nss : List (List Nat)}
      (h : List.Forall₂ (fun f ns => f.imports.length = ns.length) fs nss) :
      (List.zipWith File.to fs nss).map File.unlinked = fs ∧
        ((List.zipWith File.to fs nss).flatMap fun f => f.imports.map Link.package) =
          nss.flatten := by
    induction h with
    | nil => exact ⟨rfl, rfl⟩
    | cons hlength _ ih =>
      obtain ⟨hunlinked, htargets⟩ := links_to hlength
      rw [List.zipWith_cons_cons, List.map_cons, List.flatMap_cons, List.flatten_cons, ih.1, ih.2]
      exact ⟨congrArg (· :: _) (congrArg (File.mk _ _ · _) hunlinked), congrArg (· ++ _) htargets⟩
  obtain ⟨hunlinked, htargets⟩ := hfiles h
  exact ⟨congrArg (PackageOf.mk _ _ · _) hunlinked, htargets⟩

/-! ### What `visit` yields -/

/-- The result of an action is what the rules lead to. -/
def Leads {α : Type} (e : Surroundings) (s : Session) (task : Task) (numbers : α → List Nat) :
    EStateM.Result CompileError Session α → Prop
  | .ok a s' => Compiles e s task (numbers a) s'
  | .error err s' => Fails e s task err s'

/-- What is done with an import while those in `waiting` may still be followed. -/
def follow (e : Surroundings) (waiting : List String) (location : Location) (id : String) :
    Compiling Nat :=
  match e.directoryOf? id with
  | none => throw (.notFound location (.package id))
  | some place =>
    if id ∈ waiting then visit e (without id waiting) place id (some location)
    else revisit id (some location)

theorem revisit_leads (h : (s.indexOf? id).isSome) :
    Leads e s (.package directory id from?) (fun n => [n]) (revisit id from? s) := by
  have hget : (get : Compiling Session) s = .ok s s := rfl
  unfold revisit
  rw [Compiling.bind_eq, hget]
  dsimp only
  cases hfinished : s.finished? id with
  | some i => exact .known hfinished
  | none => exact .loop h hfinished

theorem visit_of_known (e : Surroundings) (waiting : List String) (directory : Path)
    (h : (s.indexOf? id).isSome) : visit e waiting directory id from? s = revisit id from? s := by
  rw [visit]
  change (if (s.indexOf? id).isSome then revisit id from? else _ : Compiling Nat) s = _
  rw [if_pos h]

theorem visit_of_new (e : Surroundings) (waiting : List String) (directory : Path)
    (h : s.indexOf? id = none) :
    visit e waiting directory id from? s = match draft e.tree directory id with
      | .error err => .error err s
      | .ok d => (do
          let p ← followLinks (follow e waiting) d
          conclude s.entries.length p
          return s.entries.length : Compiling Nat) (s.start d) := by
  rw [visit]
  change (if (s.indexOf? id).isSome then revisit id from? else _ : Compiling Nat) s = _
  rw [if_neg (by rw [h]; nofun)]
  cases hd : draft e.tree directory id with
  | error err => rfl
  | ok d => rfl

/-- All that any file imports is in the session or may still be followed. -/
def Covers (e : Surroundings) (waiting : List String) (s : Session) : Prop :=
  ∀ id ∈ importIds e.tree, id ∈ waiting ∨ (s.indexOf? id).isSome

theorem Covers.grows {waiting : List String} (h : Covers e waiting s) (hs : s.Grows s') :
    Covers e waiting s' := fun id hid => (h id hid).imp_right fun h => by
  obtain ⟨i, hi⟩ := Option.isSome_iff_exists.1 h
  rw [hs.indexOf? hi]
  rfl

/-- Imports are followed one after another. -/
theorem imports_lead {waiting : List String}
    (hvisit : ∀ {s : Session} {directory : Path} {id : String} {from? : Option Location},
      Covers e waiting s → id ∈ waiting → Leads e s (.package directory id from?) (fun n => [n])
        (visit e (without id waiting) directory id from? s))
    {wanted : List (Location × String)} (hwanted : ∀ w ∈ wanted, w.2 ∈ importIds e.tree)
    (hs : Covers e waiting s) :
    Leads e s (.imports wanted) (fun ns => ns) (followAll (follow e waiting) wanted s) := by
  induction wanted generalizing s with
  | nil => exact .done
  | cons w rest ih =>
    obtain ⟨location, id⟩ := w
    obtain ⟨hid, hrest⟩ := List.forall_mem_cons.1 hwanted
    rw [followAll, List.mapM_cons, Compiling.bind_eq]
    cases hplace : e.directoryOf? id with
    | none =>
      have hfollow : follow e waiting location id s =
          .error (.notFound location (.package id)) s := by
        rw [follow, hplace]
        rfl
      rw [hfollow]
      exact .missing hplace
    | some place =>
      have hfollow : Leads e s (.package place id (some location)) (fun n => [n])
          (follow e waiting location id s) := by
        simp only [follow, hplace]
        split
        · next hmem => exact hvisit hs hmem
        · next hmem => exact revisit_leads ((hs id hid).resolve_left hmem)
      cases hfirst : follow e waiting location id s with
      | error err s₁ =>
        rw [hfirst] at hfollow
        exact .first hplace hfollow
      | ok n s₁ =>
        rw [hfirst] at hfollow
        have hlater := ih hrest (hs.grows hfollow.grows)
        change Leads e s _ _ ((followAll (follow e waiting) rest >>= _) s₁)
        rw [Compiling.bind_eq]
        cases hall : followAll (follow e waiting) rest s₁ with
        | error err s₂ =>
          rw [hall] at hlater
          exact .later hplace hfollow hlater
        | ok ns s₂ =>
          rw [hall] at hlater
          exact .next hplace hfollow hlater

/-- **What `visit` yields is what the rules lead to**, as long as every import may still be followed
that is not in the session, except for the package itself. -/
theorem visit_leads {waiting : List String}
    (hs : ∀ w ∈ importIds e.tree, w ∈ waiting ∨ w = id ∨ (s.indexOf? w).isSome) :
    Leads e s (.package directory id from?) (fun n => [n])
      (visit e waiting directory id from? s) := by
  -- an import that is followed is no longer waiting, so there is less to follow behind it
  induction hlength : waiting.length using Nat.strongRecOn
    generalizing waiting s directory id from? with
  | _ n ih =>
    cases hindex : s.indexOf? id with
    | some i =>
      have hknown : (s.indexOf? id).isSome := by rw [hindex]; rfl
      rw [visit_of_known e waiting directory hknown]
      exact revisit_leads hknown
    | none =>
      rw [visit_of_new e waiting directory hindex]
      cases hdraft : draft e.tree directory id with
      | error err => exact .drafting hindex hdraft
      | ok d =>
        dsimp only
        obtain ⟨hid, -, horder⟩ := draft_ok hdraft
        have hcovers : Covers e waiting (s.start d) := fun w hw => by
          rw [Session.indexOf?_start]
          split
          · exact .inr rfl
          · next hne =>
            exact (hs w hw).imp_right fun h => h.resolve_left fun h => hne (h.trans hid.symm)
        have hwanted : ∀ w ∈ d.wanted, w.2 ∈ importIds e.tree := fun w hw => by
          obtain ⟨f, hf, hw⟩ := List.mem_flatMap.1 hw
          obtain ⟨l, hl, rfl⟩ := List.mem_map.1 hw
          exact horder.mem_importIds hf hl
        -- behind an import, all but itself may still be followed
        have hlead := imports_lead (fun {s directory id from?} hs hmem =>
          ih _ (hlength ▸ length_without_lt hmem) (fun w hw => by
            rcases hs w hw with h | h
            · by_cases hw : w = id
              · exact .inr (.inl hw)
              · exact .inl (List.mem_filter.2 ⟨h, decide_eq_true hw⟩)
            · exact .inr (.inr h)) rfl) hwanted hcovers
        rw [followAll_wanted, Compiling.map_eq] at hlead
        rw [Compiling.bind_eq, followLinks_eq, Compiling.map_eq]
        cases hfiles : followFiles (follow e waiting) d (s.start d) with
        | error err s₁ =>
          rw [hfiles] at hlead
          exact .imports hindex hdraft hlead
        | ok nss s₁ =>
          rw [hfiles] at hlead
          obtain ⟨hunlinked, htargets⟩ := PackageOf.unlinked_to
            ((forall₂_of_mapM hfiles).imp fun f ns ⟨_, _, h⟩ => (forall₂_of_mapM h).length_eq)
          have himports : Compiles e (s.start d) (.imports d.wanted) (d.to nss).targets s₁ :=
            htargets ▸ hlead
          dsimp only
          rw [Compiling.bind_eq]
          cases hconclude : conclude s.entries.length (d.to nss) s₁ with
          | error err s₂ => exact .conclusion hindex hdraft himports hunlinked hconclude
          | ok _ s₂ => exact .fresh hindex hdraft himports hunlinked hconclude

end Backwire.Package
