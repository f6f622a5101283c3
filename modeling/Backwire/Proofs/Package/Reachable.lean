import Backwire.Proofs.Package.Evaluation

/-!
# Sessions that calls lead to

A session is made by calls of `Session.attempt`, each in surroundings of its own. Between two calls
every package is finished, the index leads from the ID of each package to its number and from
nothing else, and every import has led to a package of the ID it asks for (`Session.Settled`). While
a package is compiled, all of this but the first holds (`Session.Sound`), of each session that the
rules pass through.

What a call adds is therefore whole, and what a failed one has added is gone
(`attempt_restores_or_extends`).
-/

namespace Backwire.Package

open Schema
open Wire (bind_eq_ok_iff)

variable {e : Surroundings} {s s₁ s' : Session} {task : Task} {ns : List Nat} {err : CompileError}
  {d : Draft} {p : Linked} {c : Compiled} {i : Nat} {id : String} {given : Path}

/-! ### Links -/

section Links

variable {κ τ τ' : Type}

/-- The links of a package in the order of files and of their texts. -/
def PackageOf.links (p : PackageOf κ τ) : List (Link κ) := p.files.flatMap File.imports

theorem PackageOf.map_id_links (p : PackageOf κ τ) :
    p.links.map Link.id = p.unlinked.wanted.map Prod.snd := by
  unfold links wanted unlinked
  rw [List.map_flatMap, List.map_flatMap, List.flatMap_map]
  refine List.flatMap_congr fun f _ => ?_
  simp [File.unlinked, Link.unlinked]

theorem PackageOf.map_package_links (p : PackageOf κ τ) : p.links.map Link.package = p.targets := by
  rw [links, List.map_flatMap, targets]

/-- What relates the imports of a package and what they have led to holds of each of its links. -/
theorem PackageOf.forall_links {p : PackageOf κ τ} {R : String → κ → Prop}
    (h : List.Forall₂ (fun w n => R w.2 n) p.unlinked.wanted p.targets) :
    ∀ l ∈ p.links, R l.id l.package := by
  have hids : List.Forall₂ R (p.links.map Link.id) (p.links.map Link.package) := by
    rw [map_id_links, map_package_links]
    exact List.forall₂_map_left_iff.2 h
  rw [List.forall₂_map_left_iff, List.forall₂_map_right_iff, List.forall₂_same] at hids
  exact hids

theorem PackageOf.forall_ids {p : PackageOf κ τ} {P : String → Prop}
    (h : ∀ w ∈ p.unlinked.wanted, P w.2) : ∀ l ∈ p.links, P l.id := by
  have hids : ∀ id ∈ p.links.map Link.id, P id := by
    rw [map_id_links]
    exact List.forall_mem_map.2 h
  exact List.forall_mem_map.1 hids

/-- The order of a package is one of its files in their directory, whatever links have led to. -/
theorem PackageOf.InOrder.of_unlinked {t : FileTree} {p : PackageOf κ τ} {d : PackageOf Unit τ'}
    (h : d.InOrder t) (hdirectory : p.directory = d.directory)
    (hfiles : p.files.map File.unlinked = d.files) : p.InOrder t := by
  refine ⟨?_, fun f hf => ?_⟩
  · have hnames := h.names
    rw [← hfiles, List.map_map] at hnames
    exact hnames
  · have himports := h.imports f.unlinked (hfiles ▸ List.mem_map_of_mem hf)
    have hids : f.unlinked.imports.map Link.id = f.imports.map Link.id := List.map_map
    rw [hids] at himports
    rw [hdirectory]
    exact himports

end Links

/-- A package is finished as what it was drafted as, with the links that its imports have led to:
resolving its types leaves them as they are. -/
theorem conclude_drafted {directory : Path} (hdraft : draft e.tree directory id = .ok d)
    (hlinks : p.unlinked = d) (h : conclude i p s = .ok () s') :
    ∃ c : Compiled,
      s' = s.finish i c ∧ c.id = id ∧ c.directory = directory ∧ c.files = p.files := by
  obtain ⟨rfl, rfl, -⟩ := draft_ok hdraft
  obtain ⟨c, hresolve, hs', -⟩ := conclude_ok h
  obtain ⟨_, -, hc⟩ := bind_eq_ok_iff.1 hresolve
  cases hc
  exact ⟨_, hs', congrArg PackageOf.id hlinks, congrArg PackageOf.directory hlinks, rfl⟩

/-! ### What holds while a package is compiled -/

theorem getElem?_concat_eq_some_iff {α : Type} {l : List α} {a b : α} :
    (l ++ [a])[i]? = some b ↔ l[i]? = some b ∨ i = l.length ∧ a = b := by
  rcases Nat.lt_trichotomy i l.length with hlt | rfl | hgt
  · rw [List.getElem?_append_left hlt]
    simp [Nat.ne_of_lt hlt]
  · simp
  · have hle : l.length ≤ i := Nat.le_of_lt hgt
    have hle' : (l ++ [a]).length ≤ i := by simpa using hgt
    simp [List.getElem?_eq_none hle, List.getElem?_eq_none hle', Nat.ne_of_gt hgt]

theorem Session.ids_start (s : Session) (d : Draft) : (s.start d).ids = s.ids ++ [d.id] := by
  rw [ids, entries_start, List.map_append]
  rfl

theorem Session.length_ids (s : Session) : s.ids.length = s.entries.length := List.length_map _

/-- A package is finished under the ID it was started under. -/
theorem Session.ids_finish (h : s.entries[i]? = some (.started d)) (hid : c.id = d.id) :
    (s.finish i c).ids = s.ids := by
  have hself : s.ids[i]? = some c.id := by
    rw [ids, List.getElem?_map, h, hid]
    rfl
  obtain ⟨hi, hself⟩ := List.getElem?_eq_some_iff.1 hself
  rw [ids, finish, List.map_set]
  change s.ids.set i c.id = s.ids
  rw [← hself, List.set_getElem_self]

/-- Finishing a package keeps those that are finished. -/
theorem Session.package?_finish_of_some {j : Nat} {q : Compiled}
    (h : s.entries[i]? = some (.started d)) (hq : s.package? j = some q) :
    (s.finish i c).package? j = some q := by
  rw [package?_finish (List.getElem?_eq_some_iff.1 h).1, if_neg]
  · exact hq
  · rintro rfl
    exact nomatch (package?_eq_some_iff.1 hq).symm.trans h

/-- **The index fits the packages**, and what is finished has imports that have led to finished
packages of the IDs they ask for. -/
structure Session.Sound (s : Session) : Prop where
  bounded : ∀ x ∈ s.index, x.2 < s.entries.length
  indexed : ∀ id i, s.indexOf? id = some i ↔ s.ids[i]? = some id
  linked : ∀ i p, s.package? i = some p → ∀ l ∈ p.links,
    ∃ q, s.package? l.package = some q ∧ q.id = l.id

namespace Session.Sound

theorem empty : Session.empty.Sound := by
  refine ⟨nofun, fun id i => ?_, fun i p h => nomatch h⟩
  exact ⟨nofun, nofun⟩

theorem start (hs : s.Sound) (h : s.indexOf? d.id = none) : (s.start d).Sound := by
  refine ⟨fun x hx => ?_, fun id i => ?_, fun i p hp l hl => ?_⟩
  · rw [length_start]
    rcases List.mem_cons.1 hx with rfl | hx
    · exact Nat.lt_succ_self _
    · exact Nat.lt_succ_of_lt (hs.bounded x (List.mem_of_mem_filter hx))
  · rw [indexOf?_start, ids_start, getElem?_concat_eq_some_iff, ← hs.indexed, length_ids]
    split
    · next hid =>
      subst hid
      simp [h, eq_comm]
    · next hid => simp [Ne.symm hid]
  · rw [package?_start] at hp
    obtain ⟨q, hq⟩ := hs.linked i p hp l hl
    exact ⟨q, by rwa [package?_start]⟩

/-- The ID of a finished package leads to it. -/
theorem indexOf?_eq_some (hs : s.Sound) (h : s.package? i = some c) : s.indexOf? c.id = some i := by
  rw [hs.indexed, ids, List.getElem?_map, package?_eq_some_iff.1 h]
  rfl

/-- What an ID leads to has this ID. -/
theorem id_of_indexOf? (hs : s.Sound) (h : s.indexOf? id = some i) (hc : s.package? i = some c) :
    c.id = id := by
  rw [hs.indexed, ids, List.getElem?_map, package?_eq_some_iff.1 hc] at h
  exact Option.some.inj h

/-- No two packages have one ID. -/
theorem nodup_ids (hs : s.Sound) : s.ids.Nodup := by
  refine List.nodup_iff_injective_getElem.2 fun i j hij => ?_
  have hfirst := (hs.indexed _ i).2 (List.getElem?_eq_getElem i.2)
  have hij : s.ids[i] = s.ids[j] := hij
  change s.indexOf? s.ids[i] = some i.1 at hfirst
  rw [hij] at hfirst
  have hsecond := (hs.indexed _ j).2 (List.getElem?_eq_getElem j.2)
  exact Fin.ext (Option.some.inj (hfirst.symm.trans hsecond))

/-- When a package is finished whose imports have led to finished ones, all imports have. -/
theorem link_finish (hs : s.Sound) (h : s.entries[i]? = some (.started d))
    (hlinks : ∀ l ∈ c.links, ∃ q, s.package? l.package = some q ∧ q.id = l.id) {j : Nat}
    {p : Compiled} (hp : (s.finish i c).package? j = some p) {l : Link Nat} (hl : l ∈ p.links) :
    ∃ q, s.package? l.package = some q ∧ q.id = l.id := by
  rw [package?_finish (List.getElem?_eq_some_iff.1 h).1] at hp
  split at hp
  · cases hp
    exact hlinks l hl
  · exact hs.linked j p hp l hl

theorem finish (hs : s.Sound) (h : s.entries[i]? = some (.started d)) (hid : c.id = d.id)
    (hlinks : ∀ l ∈ c.links, ∃ q, s.package? l.package = some q ∧ q.id = l.id) :
    (s.finish i c).Sound := by
  refine ⟨fun x hx => ?_, fun id j => ?_, fun j p hp l hl => ?_⟩
  · rw [length_finish]
    exact hs.bounded x hx
  · rw [indexOf?_finish, ids_finish h hid]
    exact hs.indexed id j
  · obtain ⟨q, hq, hid⟩ := hs.link_finish h hlinks hp hl
    exact ⟨q, package?_finish_of_some h hq, hid⟩

end Session.Sound

/-- What a task yields: finished packages of the IDs that are asked for. -/
def Task.Yields (s : Session) : Task → List Nat → Prop
  | .package _ id _, ns => ∃ n c, ns = [n] ∧ s.package? n = some c ∧ c.id = id
  | .imports wanted, ns =>
    List.Forall₂ (fun w n => ∃ c, s.package? n = some c ∧ c.id = w.2) wanted ns

/-- The links of a package lead where its imports have led. -/
theorem Task.Yields.links (h : (Task.imports d.wanted).Yields s p.targets) (hlinks : p.unlinked = d)
    (hfiles : c.files = p.files) :
    ∀ l ∈ c.links, ∃ q, s.package? l.package = some q ∧ q.id = l.id := by
  rw [PackageOf.links, hfiles]
  exact PackageOf.forall_links (R := fun id n => ∃ q, s.package? n = some q ∧ q.id = id)
    (hlinks ▸ h)

/-- A package that is started is still so when its imports have been followed. -/
theorem Compiles.started (h : Compiles e (s.start d) task ns s₁) :
    s₁.entries[s.entries.length]? = some (.started d) := by
  rw [h.grows.getElem? (by rw [Session.length_start]; exact Nat.lt_succ_self _),
    Session.entries_start, List.getElem?_concat_length]

/-- **Compiling keeps a session sound**, and yields finished packages. -/
theorem Compiles.sound (h : Compiles e s task ns s') (hs : s.Sound) :
    s'.Sound ∧ task.Yields s' ns := by
  induction h with
  | known h =>
    obtain ⟨hindex, hfinished⟩ := Session.finished?_eq_some_iff.1 h
    obtain ⟨c, hc⟩ := Option.isSome_iff_exists.1 hfinished
    exact ⟨hs, _, c, rfl, hc, hs.id_of_indexOf? hindex hc⟩
  | @fresh s s₁ s' directory id from? d p hnew hdraft himports hlinks hconclude ih =>
    obtain ⟨c, rfl, hid, -, hfiles⟩ := conclude_drafted hdraft hlinks hconclude
    obtain ⟨rfl, -, -⟩ := draft_ok hdraft
    obtain ⟨hsound, hyields⟩ := ih (hs.start hnew)
    have hstarted := himports.started
    refine ⟨hsound.finish hstarted hid (hyields.links hlinks hfiles), _, c, rfl, ?_, hid⟩
    rw [Session.package?_finish (List.getElem?_eq_some_iff.1 hstarted).1, if_pos rfl]
  | done => exact ⟨hs, .nil⟩
  | next _ _ hrest ihPackage ihRest =>
    obtain ⟨hsound, n, c, hn, hc, hid⟩ := ihPackage hs
    obtain ⟨hsound', hyields⟩ := ihRest hsound
    cases hn
    exact ⟨hsound', .cons ⟨c, hrest.grows.package? hc, hid⟩ hyields⟩

/-! ### What is added -/

/-- What holds of what a task asks for: of the package, or of all imports, which stand in files. -/
def Task.Asks (e : Surroundings) (P : String → Path → Prop) : Task → Prop
  | .package directory id _ => P id directory
  | .imports wanted => ∀ w ∈ wanted, w.2 ∈ importIds e.tree

/-- A package as it is made in these surroundings: its files are in order, and there is a directory
for each of its imports. -/
structure PackageOf.MadeIn {κ τ : Type} (e : Surroundings) (p : PackageOf κ τ) : Prop where
  inOrder : p.InOrder e.tree
  places : ∀ l ∈ p.links, (e.directoryOf? l.id).isSome

/-- Imports are followed into directories. -/
theorem Compiles.places {wanted : List (Location × String)}
    (h : Compiles e s (.imports wanted) ns s') : ∀ w ∈ wanted, (e.directoryOf? w.2).isSome := by
  induction wanted generalizing s ns with
  | nil => exact nofun
  | cons w rest ih =>
    cases h with
    | next hplace _ hrest =>
      refine List.forall_mem_cons.2 ⟨?_, ih hrest⟩
      rw [hplace]
      rfl

/-- **Every package that is added is whole**: it is finished, made of its files in their order, and
stands under an ID and in a directory that it was asked for by. -/
theorem Compiles.added {P : String → Path → Prop}
    (hP : ∀ id ∈ importIds e.tree, ∀ place, e.directoryOf? id = some place → P id place)
    (h : Compiles e s task ns s') (htask : task.Asks e P) {i : Nat} (hle : s.entries.length ≤ i)
    (hlt : i < s'.entries.length) :
    ∃ c, s'.package? i = some c ∧ c.MadeIn e ∧ P c.id c.directory := by
  induction h with
  | known => exact absurd hlt (Nat.not_lt.2 hle)
  | @fresh s s₁ s' directory id from? d p hnew hdraft himports hlinks hconclude ih =>
    obtain ⟨c, rfl, hid, hdirectory, hfiles⟩ := conclude_drafted hdraft hlinks hconclude
    obtain ⟨rfl, rfl, horder⟩ := draft_ok hdraft
    rw [Session.length_finish] at hlt
    rw [Session.package?_finish (List.getElem?_eq_some_iff.1 himports.started).1]
    -- the package itself, or one that its imports have added
    split
    · have hdrafted : c.files.map File.unlinked = d.files :=
        hfiles ▸ congrArg PackageOf.files hlinks
      refine ⟨c, rfl, ⟨horder.of_unlinked hdirectory hdrafted, ?_⟩, ?_⟩
      · rw [PackageOf.links, hfiles]
        exact PackageOf.forall_ids (P := fun id => (e.directoryOf? id).isSome)
          (hlinks ▸ himports.places)
      · rw [hid, hdirectory]
        exact htask
    · next hne =>
      refine ih (fun w hw => ?_) ?_ hlt
      · obtain ⟨f, hf, hw⟩ := List.mem_flatMap.1 hw
        obtain ⟨l, hl, rfl⟩ := List.mem_map.1 hw
        exact horder.mem_importIds hf hl
      · rw [Session.length_start]
        exact Nat.lt_of_le_of_ne hle (Ne.symm hne)
  | done => exact absurd hlt (Nat.not_lt.2 hle)
  | @next s s₁ s' location id place n rest targets hplace hpackage hrest ihPackage ihRest =>
    obtain ⟨hid, hrestIds⟩ := List.forall_mem_cons.1 htask
    rcases Nat.lt_or_ge i s₁.entries.length with hi | hi
    · obtain ⟨c, hc, hmade⟩ := ihPackage (hP id hid place hplace) hle hi
      exact ⟨c, hrest.grows.package? hc, hmade⟩
    · exact ihRest hrestIds hi hlt

/-- What is added is whole, whatever it was asked for by. -/
theorem Compiles.made {directory : Path} {from? : Option Location}
    (h : Compiles e s (.package directory id from?) ns s') {i : Nat} (hle : s.entries.length ≤ i)
    (hlt : i < s'.entries.length) : ∃ c, s'.package? i = some c ∧ c.MadeIn e := by
  obtain ⟨c, hc, hmade, -⟩ :=
    h.added (P := fun _ _ => True) (fun _ _ _ _ => trivial) trivial hle hlt
  exact ⟨c, hc, hmade⟩

/-! ### Calls -/

/-- What a call asks for. -/
def Surroundings.call (e : Surroundings) (given : Path) : Task :=
  .package (e.absolute given) (e.packageId given) none

/-- A call follows the rules, and takes out what was added if they lead to an error. -/
theorem attempt_cases (s : Session) (e : Surroundings) (given : Path) :
    (∃ n s', s.attempt e given = (.ok n, s') ∧ Compiles e s (e.call given) [n] s') ∨
      ∃ err s', s.attempt e given = (.error err, s'.truncate s.entries.length) ∧
        Fails e s (e.call given) err s' := by
  have hleads : Leads e s (e.call given) (fun n => [n])
      (visit e (importIds e.tree) (e.absolute given) (e.packageId given) none s) :=
    visit_leads fun w hw => .inl hw
  unfold Session.attempt
  cases hvisit : visit e (importIds e.tree) (e.absolute given) (e.packageId given) none s with
  | ok n s' =>
    rw [hvisit] at hleads
    exact .inl ⟨n, s', rfl, hleads⟩
  | error err s' =>
    rw [hvisit] at hleads
    exact .inr ⟨err, s', rfl, hleads⟩

theorem Compiles.attempt {n : Nat} (h : Compiles e s (e.call given) [n] s') :
    s.attempt e given = (.ok n, s') := by
  rcases attempt_cases s e given with ⟨m, s'', hattempt, hcompiles⟩ | ⟨err, s'', -, hfails⟩
  · obtain ⟨hnm, rfl⟩ := h.unique hcompiles
    cases hnm
    exact hattempt
  · exact absurd hfails h.not_fails

/-- A session between calls: it is sound, and all of its packages are finished. -/
structure Session.Settled (s : Session) : Prop extends s.Sound where
  finished : ∀ i < s.entries.length, ∃ c, s.package? i = some c

namespace Session.Settled

theorem empty : Session.empty.Settled := ⟨.empty, nofun⟩

/-- A package that is asked for is there, with all that was added on the way to it. -/
theorem compiles (hs : s.Settled) {n : Nat} (h : Compiles e s (e.call given) [n] s') :
    s'.Settled ∧ ∃ c, s'.package? n = some c ∧ c.id = e.packageId given := by
  obtain ⟨hsound, _, c, hn, hc, hid⟩ := h.sound hs.toSound
  cases hn
  refine ⟨⟨hsound, fun i hi => ?_⟩, c, hc, hid⟩
  rcases Nat.lt_or_ge i s.entries.length with hold | hnew
  · obtain ⟨q, hq⟩ := hs.finished i hold
    exact ⟨q, h.grows.package? hq⟩
  · obtain ⟨q, hq, -⟩ := h.made hnew hi
    exact ⟨q, hq⟩

/-- What a failed call has added is gone. -/
theorem fails (hs : s.Settled) (h : Fails e s task err s') : s'.truncate s.entries.length = s :=
  h.grows.truncate_eq hs.bounded

theorem attempt (hs : s.Settled) (e : Surroundings) (given : Path) :
    (s.attempt e given).2.Settled := by
  rcases attempt_cases s e given with ⟨n, s', hattempt, h⟩ | ⟨err, s', hattempt, h⟩
  · rw [hattempt]
    exact (hs.compiles h).1
  · rw [hattempt, hs.fails h]
    exact hs

/-- The index leads from the IDs of the packages to their numbers. -/
theorem indexOf?_eq_some_iff (hs : s.Settled) :
    s.indexOf? id = some i ↔ ∃ c, s.package? i = some c ∧ c.id = id := by
  constructor
  · intro hi
    have hlt := (List.getElem?_eq_some_iff.1 ((hs.indexed id i).1 hi)).1
    rw [length_ids] at hlt
    obtain ⟨c, hc⟩ := hs.finished i hlt
    exact ⟨c, hc, hs.id_of_indexOf? hi hc⟩
  · rintro ⟨c, hc, rfl⟩
    exact hs.indexOf?_eq_some hc

end Session.Settled

/-- **The sessions that calls lead to**, each call in surroundings of its own. -/
inductive Session.Reachable : Session → Prop where
  | empty : Reachable .empty
  | attempt {s : Session} (h : Reachable s) (e : Surroundings) (given : Path) :
      Reachable (s.attempt e given).2

/-- The session that a call has left can be reached. -/
theorem Session.Reachable.of_attempt {r : Except CompileError Nat} (h : s.Reachable)
    (hattempt : s.attempt e given = (r, s')) : s'.Reachable := by
  have hnext := h.attempt e given
  rwa [hattempt] at hnext

theorem Session.Reachable.settled (h : s.Reachable) : s.Settled := by
  induction h with
  | empty => exact .empty
  | attempt _ e given ih => exact ih.attempt e given

/-- **What compiling keeps, calls keep**: one that fails leaves the session as it was. -/
theorem Session.Reachable.keeps {I : Session → Prop} (h : s.Reachable) (hempty : I .empty)
    (hcompiles : ∀ {e : Surroundings} {s s' : Session} {task : Task} {ns : List Nat},
      s.Reachable → Compiles e s task ns s' → I s → I s') : I s := by
  induction h with
  | empty => exact hempty
  | @attempt s h e given ih =>
    rcases attempt_cases s e given with ⟨n, s', hattempt, h'⟩ | ⟨err, s', hattempt, h'⟩
    · rw [hattempt]
      exact hcompiles h h' ih
    · rw [hattempt, h.settled.fails h']
      exact ih

/-! ### A sample -/

/-- A path of names from the root. -/
def Path.ofNames (names : List String) : Path := ⟨true, names.map .name⟩

/-- A directory `x` under each of two import roots, and a directory `c` outside them that imports
it. -/
def Surroundings.sample : Surroundings where
  tree := ⟨[(.ofNames ["w"], .directory), (.ofNames ["w", "a"], .directory),
    (.ofNames ["w", "a", "x"], .directory), (.ofNames ["w", "a", "x", "m.spec"], .file ⟨#[]⟩),
    (.ofNames ["w", "b"], .directory), (.ofNames ["w", "b", "x"], .directory),
    (.ofNames ["w", "b", "x", "m.spec"], .file ⟨#[]⟩), (.ofNames ["w", "c"], .directory),
    (.ofNames ["w", "c", "m.spec"], .file "import \"x\"".toUTF8)]⟩
  workingDirectory := .ofNames ["w"]
  importPaths := [.ofText "a", .ofText "b"]

section Sample

variable {κ τ : Type}

/-- The package `x` under an import root. -/
def PackageOf.sampleImported (root : String) : PackageOf κ τ :=
  ⟨"x", .ofNames ["w", root, "x"], [⟨"m.spec", .ofNames ["w", root, "x", "m.spec"], [], []⟩], []⟩

/-- The package `c`, whose import has led to `package`. -/
def PackageOf.sampleImporting (package : κ) : PackageOf κ τ :=
  ⟨"c", .ofNames ["w", "c"],
    [⟨"m.spec", .ofNames ["w", "c", "m.spec"], [⟨"x", "x", package⟩], []⟩], []⟩

end Sample

/-- The session in which `c` has been compiled, and `x` under the first root because of it. -/
def Session.sample : Session :=
  ⟨[.finished (.sampleImporting 1), .finished (.sampleImported "a")], [("x", 1), ("c", 0)]⟩

theorem draft_sampleImported {root : String} (h : root = "a" ∨ root = "b") :
    draft Surroundings.sample.tree (.ofNames ["w", root, "x"]) "x" =
      .ok (.sampleImported root) := by
  rcases h with rfl | rfl <;>
    exact draft_of_single ⟨"m.spec", .ofNames ["w", _, "x", "m.spec"], ""⟩ rfl rfl rfl rfl
      (by cbv : parse "" = .ok ⟨[], [], []⟩) rfl

theorem draft_sampleImporting :
    draft Surroundings.sample.tree (.ofNames ["w", "c"]) "c" = .ok (.sampleImporting ()) :=
  draft_of_single ⟨"m.spec", .ofNames ["w", "c", "m.spec"], "import \"x\""⟩ rfl rfl rfl rfl
    (by cbv : parse "import \"x\"" = .ok ⟨[⟨none, "x"⟩], [], []⟩) (by cbv)

theorem directoryOf?_sample :
    Surroundings.sample.directoryOf? "x" = some (.ofNames ["w", "a", "x"]) := by cbv

theorem call_sample :
    Surroundings.sample.call (.ofText "c") = .package (.ofNames ["w", "c"]) "c" none := by
  cbv

theorem attempt_sample : Session.empty.attempt .sample (.ofText "c") = (.ok 0, .sample) := by
  refine Compiles.attempt (call_sample ▸ ?_)
  have himported : Compiles .sample (Session.empty.start (.sampleImporting ()))
      (.package (.ofNames ["w", "a", "x"]) "x" (some (.ofFile "c" "m.spec"))) [1]
      (((Session.empty.start (.sampleImporting ())).start (.sampleImported "a")).finish 1
        (.sampleImported "a")) :=
    .fresh (p := .sampleImported "a") rfl (draft_sampleImported (.inl rfl)) .done rfl rfl
  exact .fresh (p := .sampleImporting 1) rfl draft_sampleImporting
    (.next directoryOf?_sample himported .done) rfl rfl

/-! ### What a call leaves -/

/-- **A failed call leaves no trace, and one that succeeds only adds.** After an error the session
is what it was. Else all packages are there that were, every package is finished, the index leads
from the IDs of the packages to their numbers, and no ID stands twice; the package that was asked
for is there, and asking for it again yields it and adds nothing, whatever has become of the
files. -/
theorem attempt_restores_or_extends (h : s.Reachable) (e : Surroundings) (given : Path) :
    match s.attempt e given with
    | (.error _, s') => s' = s
    | (.ok n, s') =>
      s.entries <+: s'.entries ∧ (∀ entry ∈ s'.entries, ∃ c, entry = .finished c) ∧
        (∀ id i, s'.indexOf? id = some i ↔ ∃ c, s'.package? i = some c ∧ c.id = id) ∧
        s'.ids.Nodup ∧ (∃ c, s'.package? n = some c ∧ c.id = e.packageId given) ∧
        ∀ tree, s'.attempt { e with tree := tree } given = (.ok n, s') := by
  have hs := h.settled
  rcases attempt_cases s e given with ⟨n, s', hattempt, h⟩ | ⟨err, s', hattempt, h⟩
  · obtain ⟨hs', c, hc, hid⟩ := hs.compiles h
    rw [hattempt]
    refine ⟨h.grows.entries, fun entry hentry => ?_, fun id i => hs'.indexOf?_eq_some_iff,
      hs'.nodup_ids, ⟨c, hc, hid⟩, fun tree => ?_⟩
    · obtain ⟨i, hi, rfl⟩ := List.mem_iff_getElem.1 hentry
      obtain ⟨q, hq⟩ := hs'.finished i hi
      rw [Session.package?_eq_some_iff, List.getElem?_eq_getElem hi] at hq
      exact ⟨q, Option.some.inj hq⟩
    · refine Compiles.attempt (.known ?_)
      rw [Session.finished?_eq_some_iff]
      refine ⟨hs'.indexOf?_eq_some_iff.2 ⟨c, hc, hid⟩, ?_⟩
      rw [hc]
      rfl
  · rw [hattempt]
    exact hs.fails h

theorem attempt_restores_or_extends_sample :
    Session.empty.Reachable ∧ Session.empty.attempt .sample (.ofText "c") = (.ok 0, .sample) ∧
      Session.sample.ids.Nodup ∧
      ∀ tree, Session.sample.attempt { Surroundings.sample with tree := tree } (.ofText "c") =
        (.ok 0, .sample) := by
  have h := attempt_restores_or_extends .empty .sample (.ofText "c")
  rw [attempt_sample] at h
  obtain ⟨-, -, -, hnodup, -, hagain⟩ := h
  exact ⟨.empty, attempt_sample, hnodup, hagain⟩

end Backwire.Package
