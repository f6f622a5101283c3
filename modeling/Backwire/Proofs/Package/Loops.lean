import Backwire.Proofs.Package.Resolution
import Backwire.Proofs.Package.Regularity

/-!
# Loops of imports

While a call goes on, the packages whose imports are being followed are the started ones of the
session. They are not kept as a path, and packages that have been finished stand between them; still
they are one, in the order of their numbers: each of them imports the next, and the last one imports
what is asked for (`Session.OnPath`, `Task.Follows`). Starting a package makes the path longer by
this package, and compiling one leaves the path as it was (`Compiles.opened_eq`).

An error about a loop comes from no other place than an import of a package on the path
(`Fails.comesTo_loop`), and reports the path from there on. So the loop is there: in the files of
packages that this call has come to by their imports (`loops_are_real`).
-/

namespace Backwire.Package

open Schema
open Wire (bind_eq_ok_iff bind_eq_error_iff)

/-! ### Errors that are not about loops -/

/-- Whether an error is about a loop. -/
def CompileError.isLoop : CompileError → Bool
  | circularImport _ _ _ => true
  | _ => false

/-- No error of the calculation is about a loop. -/
def NoLoop {α : Type} (r : Except CompileError α) : Prop :=
  ∀ err, r = .error err → err.isLoop = false

namespace NoLoop

variable {α β : Type} {err : CompileError}

theorem pure (a : α) : NoLoop (pure a) := nofun

theorem error (h : err.isLoop = false) : NoLoop (.error err : Except CompileError α) := by
  rintro _ ⟨⟩
  exact h

theorem bind {r : Except CompileError α} {f : α → Except CompileError β} (hr : NoLoop r)
    (hf : ∀ a, NoLoop (f a)) : NoLoop (r >>= f) := fun err h => by
  rcases bind_eq_error_iff.1 h with h | ⟨a, -, h⟩
  · exact hr err h
  · exact hf a err h

theorem mapM {f : α → Except CompileError β} (hf : ∀ a, NoLoop (f a)) (as : List α) :
    NoLoop (as.mapM f) := fun err h => by
  obtain ⟨a, -, h⟩ := (mapM_eq_error_iff.1 h).exists_mem
  exact hf a err h

theorem mapError {ε : Type} {f : ε → CompileError} (hf : ∀ err, (f err).isLoop = false)
    (r : Except ε α) : NoLoop (r.mapError f) := by
  cases r with
  | ok a => exact .pure a
  | error err => exact .error (hf err)

theorem readSources (t : FileTree) (directory : Path) : NoLoop (readSources t directory) :=
  (mapError (fun _ => rfl) _).bind fun _ =>
    mapM (fun _ => (mapError (fun _ => rfl) _).bind fun _ => .pure _) _

theorem draftFiles (package : String) (parsed : List (Source × SchemaFile)) :
    NoLoop (draftFiles package 0 [] parsed) := fun err h => by
  cases draftFiles_error [] h nofun <;> rfl

theorem draft (t : FileTree) (directory : Path) (id : String) : NoLoop (draft t directory id) := by
  refine (readSources t directory).bind fun sources => ?_
  dsimp only
  split
  · exact .error rfl
  · exact (mapM (fun s => (mapError (fun _ => rfl) _).bind fun _ => .pure _) sources).bind
      fun parsed => (draftFiles id parsed).bind fun _ => .pure _

/-- What is not resolved is not found. -/
theorem resolveTypes (s : Session) (number : Nat) (p : Linked) :
    NoLoop (resolveTypes s number p) := fun err h => by
  obtain ⟨o, -, h⟩ := (resolveTypes_eq_error_iff.1 h).exists_mem
  cases hleaf : o.type.leaf with
  | builtin b =>
    rw [hleaf] at h
    cases h
  | named r =>
    rw [hleaf] at h
    rw [resolveName_error (bind_pure_eq_error_iff.1 h)]
    rfl

theorem of_irregular {τ : Type} {location : Location} {b : Body τ Int}
    (h : Irregular location b err) : err.isLoop = false := by
  cases h <;> rfl

theorem checkRules {s : Session} {number : Nat} {c : Compiled} (hc : s.package? number = some c) :
    NoLoop (checkRules s number c) := fun err h => by
  cases (checkRules_decides hc).error err h with
  | body _ h => exact of_irregular h
  | field => rfl

end NoLoop

variable {e : Surroundings} {given : Path} {s₀ s s₁ s' t : Session} {task task' : Task}
  {ns : List Nat} {err : CompileError} {d : Draft} {p : Linked} {directory : Path} {id : String}
  {from? : Option Location}

/-- Finishing a package never reports a loop. -/
theorem conclude_noLoop {number : Nat} (hnumber : number < s.entries.length)
    (h : conclude number p s = .error err s') : err.isLoop = false := by
  rw [conclude_eq] at h
  split at h
  · next hresolve =>
    cases h
    exact NoLoop.resolveTypes s number p _ hresolve
  next c _ =>
  have hc : (s.finish number c).package? number = some c := by
    rw [Session.package?_finish hnumber, if_pos rfl]
  split at h
  · next hcheck =>
    cases h
    exact NoLoop.checkRules hc _ hcheck
  · cases h

/-- **An error about a loop comes from a package whose imports are being followed.** -/
theorem Fails.comesTo_loop (h : Fails e s task err s') (hloop : err.isLoop = true) :
    ∃ t directory id from?, ComesTo e s task t (.package directory id from?) ∧
      (t.indexOf? id).isSome ∧ t.finished? id = none ∧ err = t.loopError id from? := by
  induction h with
  | loop hknown hstarted => exact ⟨_, _, _, _, .here, hknown, hstarted, rfl⟩
  | drafting _ hdraft =>
    cases hloop.symm.trans (NoLoop.draft e.tree _ _ _ hdraft)
  | imports hnew hdraft _ ih =>
    obtain ⟨t, directory, id, from?, hcomes, h⟩ := ih hloop
    exact ⟨t, directory, id, from?, .imports hnew hdraft hcomes, h⟩
  | conclusion _ _ himports _ hconclude =>
    have hlt := (List.getElem?_eq_some_iff.1 himports.started).1
    cases hloop.symm.trans (conclude_noLoop hlt hconclude)
  | missing => cases hloop
  | first hplace _ ih =>
    obtain ⟨t, directory, id, from?, hcomes, h⟩ := ih hloop
    exact ⟨t, directory, id, from?, .first hplace hcomes, h⟩
  | later hplace hpackage _ ih =>
    obtain ⟨t, directory, id, from?, hcomes, h⟩ := ih hloop
    exact ⟨t, directory, id, from?, .later hplace hpackage hcomes, h⟩

/-! ### What is imported -/

section Asking

variable {κ τ : Type}

/-- **A file of a package, by its place, has an import of this ID.** -/
def PackageOf.Asks (p : PackageOf κ τ) (place : Location) (id : String) : Prop :=
  ∃ f ∈ p.files, place = .ofFile p.id f.name ∧ ∃ l ∈ f.imports, l.id = id

theorem PackageOf.asks_of_wanted {p : PackageOf κ τ} {w : Location × String} (h : w ∈ p.wanted) :
    p.Asks w.1 w.2 := by
  obtain ⟨f, hf, hw⟩ := List.mem_flatMap.1 h
  obtain ⟨l, hl, rfl⟩ := List.mem_map.1 hw
  exact ⟨f, hf, rfl, l, hl, rfl⟩

end Asking

namespace Surroundings

/-- Where the package of an ID lies in a call: what the call is given, for its own ID, and for any
other one the directory that an import leads to. -/
def placeIn? (e : Surroundings) (given : Path) (id : String) : Option Path :=
  if id = e.packageId given then some (e.absolute given) else e.directoryOf? id

/-- **In a call, the package of the ID `x` has an import of the ID `y`** in the file at `place`. -/
def Imports (e : Surroundings) (given : Path) (place : Location) (x y : String) : Prop :=
  ∃ directory d, e.placeIn? given x = some directory ∧ draft e.tree directory x = .ok d ∧
    d.Asks place y

end Surroundings

/-! ### What is open -/

namespace Session

/-- The IDs of the packages whose imports are being followed, in the order of their numbers. -/
def opened (s : Session) : List String := s.entries.filterMap Entry.started?

theorem opened_start (s : Session) (d : Draft) : (s.start d).opened = s.opened ++ [d.id] := by
  rw [opened, entries_start, List.filterMap_append]
  rfl

/-- What is open stands among all packages. -/
theorem opened_sublist (s : Session) : s.opened.Sublist s.ids := by
  unfold opened ids
  induction s.entries with
  | nil => exact .slnil
  | cons entry entries ih =>
    cases entry with
    | started d => exact ih.cons_cons d.id
    | finished p => exact ih.cons p.id

theorem Sound.nodup_opened (hs : s.Sound) : s.opened.Nodup := hs.nodup_ids.sublist s.opened_sublist

theorem Sound.indexOf?_of_opened (hs : s.Sound) (h : id ∈ s.opened) : (s.indexOf? id).isSome := by
  obtain ⟨i, hi⟩ := List.mem_iff_getElem?.1 (s.opened_sublist.subset h)
  rw [(hs.indexed id i).2 hi]
  rfl

/-- Between calls nothing is open. -/
theorem Settled.opened_eq (hs : s.Settled) : s.opened = [] := by
  refine List.filterMap_eq_nil_iff.2 fun entry hentry => ?_
  obtain ⟨i, hi, rfl⟩ := List.mem_iff_getElem.1 hentry
  obtain ⟨c, hc⟩ := hs.finished i hi
  rw [package?_eq_some_iff, List.getElem?_eq_getElem hi] at hc
  rw [Option.some.inj hc]
  rfl

/-- **The loop that is reported** is what is open from the package on, and the package again. -/
theorem Sound.loopTo_eq (hs : s.Sound) (hknown : (s.indexOf? id).isSome)
    (hstarted : s.finished? id = none) :
    ∃ before rest, s.opened = before ++ id :: rest ∧ s.loopTo id = id :: rest ++ [id] := by
  obtain ⟨i, hi⟩ := Option.isSome_iff_exists.1 hknown
  have hid := (hs.indexed id i).1 hi
  rw [ids, List.getElem?_map, Option.map_eq_some_iff] at hid
  obtain ⟨entry, hentry, rfl⟩ := hid
  cases entry with
  | finished p =>
    have hfinished : s.finished? p.id = some i := by
      rw [finished?_eq_some_iff, package?_eq_some_iff.2 hentry]
      exact ⟨hi, rfl⟩
    cases hstarted.symm.trans hfinished
  | started d =>
    obtain ⟨hlt, hget⟩ := List.getElem?_eq_some_iff.1 hentry
    have hdrop : s.entries.drop i = .started d :: s.entries.drop (i + 1) := by
      rw [List.drop_eq_getElem_cons hlt, hget]
    have hsince : (s.entries.drop i).filterMap Entry.started? =
        (Entry.started d).id :: (s.entries.drop (i + 1)).filterMap Entry.started? := by
      rw [hdrop]
      rfl
    refine ⟨(s.entries.take i).filterMap Entry.started?,
      (s.entries.drop (i + 1)).filterMap Entry.started?, ?_, ?_⟩
    · rw [← hsince, ← List.filterMap_append, List.take_append_drop]
      rfl
    · rw [loopTo, since, hi, Option.getD_some, hsince]

end Session

/-- **Compiling leaves open what was open**, and nothing else. -/
theorem Compiles.opened_eq (h : Compiles e s task ns s') : s'.opened = s.opened := by
  induction h with
  | known => rfl
  | @fresh s s₁ s' _ _ _ d _ hnew hdraft himports _ hconclude ih =>
    obtain ⟨rfl, -⟩ := draft_ok hdraft
    obtain ⟨c, -, rfl, -⟩ := conclude_ok hconclude
    -- nothing is left open behind the package, so finishing it leaves what stood before it
    obtain ⟨more, hmore⟩ := himports.grows.entries
    rw [Session.entries_start, List.append_assoc] at hmore
    have hlater : more.filterMap Entry.started? = [] := by
      rw [Session.opened_start, Session.opened, ← hmore, List.filterMap_append] at ih
      simpa [Session.opened, Entry.started?] using ih
    rw [Session.opened, Session.finish, ← hmore, List.set_append_right _ _ (Nat.le_refl _),
      List.filterMap_append, Nat.sub_self]
    change s.opened ++ more.filterMap Entry.started? = s.opened
    rw [hlater, List.append_nil]
  | done => rfl
  | next _ _ _ ihPackage ihRest => rw [ihRest, ihPackage]

/-! ### The path that is open -/

/-- **What is open is a path of imports**: in the call for `given` from the session `s₀`, each open
package imports the next, the first one is the one that is asked for, and `s₀` has none of them. -/
structure Session.OnPath (t : Session) (e : Surroundings) (given : Path) (s₀ : Session) : Prop where
  sound : t.Sound
  grows : s₀.Grows t
  path : t.opened.IsChain fun x y => ∃ place, e.Imports given place x y
  first : ∀ x ∈ t.opened.head?, x = e.packageId given
  new : ∀ x ∈ t.opened, s₀.indexOf? x = none

/-- **How a task follows from what is open**: it is what the call asks for, or the package that is
open last imports what the task is about. -/
def Task.Follows (e : Surroundings) (given : Path) (t : Session) : Task → Prop
  | .package directory id none =>
    t.opened = [] ∧ directory = e.absolute given ∧ id = e.packageId given
  | .package directory id (some place) =>
    e.directoryOf? id = some directory ∧ ∃ x, t.opened.getLast? = some x ∧ e.Imports given place x id
  | .imports wanted => ∃ x, t.opened.getLast? = some x ∧ ∀ w ∈ wanted, e.Imports given w.1 x w.2

namespace Task.Follows

/-- What the call asks for is seen to before anything is open. -/
theorem asked (h : (Task.package directory id from?).Follows e given s) (hopened : s.opened = []) :
    id = e.packageId given := by
  cases from? with
  | none => exact h.2.2
  | some place =>
    obtain ⟨-, x, hx, -⟩ := h
    rw [hopened] at hx
    cases hx

/-- While something is open, the last of it imports the package. -/
theorem imported {x : String} (h : (Task.package directory id from?).Follows e given s)
    (hx : s.opened.getLast? = some x) : ∃ place, from? = some place ∧
      e.directoryOf? id = some directory ∧ e.Imports given place x id := by
  cases from? with
  | none =>
    rw [h.1] at hx
    cases hx
  | some place =>
    obtain ⟨hplace, y, hy, himports⟩ := h
    cases hx.symm.trans hy
    exact ⟨place, rfl, hplace, himports⟩

end Task.Follows

namespace Session.OnPath

theorem of_settled (hs : s.Settled) : s.OnPath e given s := by
  refine ⟨hs.toSound, .refl s, ?_, ?_, ?_⟩ <;> rw [hs.opened_eq]
  · exact .nil
  · exact nofun
  · exact nofun

theorem compiles (h : s.OnPath e given s₀) (hc : Compiles e s task ns s') :
    s'.OnPath e given s₀ := by
  refine ⟨(hc.sound h.sound).1, h.grows.trans hc.grows, ?_, ?_, ?_⟩ <;> rw [hc.opened_eq]
  · exact h.path
  · exact h.first
  · exact h.new

/-- While something is open, the package that the call asks for is in the session. -/
theorem known_first (h : s.OnPath e given s₀) (hne : s.opened ≠ []) :
    (s.indexOf? (e.packageId given)).isSome := by
  obtain ⟨x, rest, hopened⟩ := List.exists_cons_of_ne_nil hne
  rw [← h.first x (by rw [hopened]; rfl)]
  exact h.sound.indexOf?_of_opened (by rw [hopened]; exact List.mem_cons_self)

/-- A new package that follows from what is open lies where the call looks for it. -/
theorem placeIn? (h : s.OnPath e given s₀) (hnew : s.indexOf? id = none)
    (hfollows : (Task.package directory id from?).Follows e given s) :
    e.placeIn? given id = some directory := by
  cases from? with
  | none =>
    obtain ⟨-, rfl, rfl⟩ := hfollows
    rw [Surroundings.placeIn?, if_pos rfl]
  | some place =>
    obtain ⟨hplace, x, hx, -⟩ := hfollows
    have hknown := h.known_first (by rintro hopened; rw [hopened] at hx; cases hx)
    rw [Surroundings.placeIn?, if_neg, hplace]
    rintro rfl
    rw [hnew] at hknown
    cases hknown

/-- **A package that is started makes the path longer**, and its imports follow from there. -/
theorem start (h : s.OnPath e given s₀) (hnew : s.indexOf? id = none)
    (hdraft : draft e.tree directory id = .ok d)
    (hfollows : (Task.package directory id from?).Follows e given s) :
    (s.start d).OnPath e given s₀ ∧ (Task.imports d.wanted).Follows e given (s.start d) := by
  have hplace := h.placeIn? hnew hfollows
  obtain ⟨rfl, -⟩ := draft_ok hdraft
  have hnew₀ : s₀.indexOf? d.id = none := by
    cases hi : s₀.indexOf? d.id with
    | none => rfl
    | some i => cases hnew.symm.trans (h.grows.indexOf? hi)
  refine ⟨⟨h.sound.start hnew, h.grows.trans (.start hnew), ?_, ?_, ?_⟩, d.id, ?_, fun w hw =>
    ⟨directory, d, hplace, hdraft, PackageOf.asks_of_wanted hw⟩⟩ <;> rw [Session.opened_start]
  · refine h.path.append (.singleton _) fun x hx y hy => ?_
    obtain ⟨place, -, -, himports⟩ := hfollows.imported hx
    cases hy
    exact ⟨place, himports⟩
  · rw [List.head?_append]
    intro x hx
    cases hopened : s.opened.head? with
    | none =>
      rw [hopened] at hx
      cases hx
      exact hfollows.asked (List.head?_eq_none_iff.1 hopened)
    | some y =>
      rw [hopened] at hx
      cases hx
      exact h.first _ hopened
  · exact List.forall_mem_append.2 ⟨h.new, List.forall_mem_singleton.2 hnew₀⟩
  · exact List.getLast?_concat

end Session.OnPath

/-- **Whatever a call comes to follows from what is open then.** -/
theorem ComesTo.onPath (h : ComesTo e s task t task') (hs : s.OnPath e given s₀)
    (htask : task.Follows e given s) : t.OnPath e given s₀ ∧ task'.Follows e given t := by
  induction h with
  | here => exact ⟨hs, htask⟩
  | imports hnew hdraft _ ih =>
    obtain ⟨hstart, hwanted⟩ := hs.start hnew hdraft htask
    exact ih hstart hwanted
  | first hplace _ ih =>
    obtain ⟨x, hx, hwanted⟩ := htask
    exact ih hs ⟨hplace, x, hx, hwanted _ List.mem_cons_self⟩
  | later hplace hpackage _ ih =>
    obtain ⟨x, hx, hwanted⟩ := htask
    refine ih (hs.compiles hpackage) ⟨x, ?_, fun w hw => hwanted w (List.mem_cons_of_mem _ hw)⟩
    rw [hpackage.opened_eq, hx]

/-! ### Loops -/

/-- **A loop of imports**: packages that are new in the call, each of which imports the next and the
last one the first, in the file at `place`; the first one stands at the end again. -/
structure Loop (e : Surroundings) (given : Path) (s : Session) (place : Location) (package : String)
    (chain : List String) : Prop where
  length : 2 ≤ chain.length
  head : chain.head? = some package
  last : chain.getLast? = some package
  nodup : chain.dropLast.Nodup
  new : ∀ x ∈ chain, s.indexOf? x = none
  imports : chain.IsChain fun x y => ∃ place, e.Imports given place x y
  back : ∃ x, chain[chain.length - 2]? = some x ∧ e.Imports given place x package

/-- **An import of a package that is open closes a loop**, which is the one that is reported. -/
theorem Session.OnPath.loop (h : t.OnPath e given s₀) (hknown : (t.indexOf? id).isSome)
    (hstarted : t.finished? id = none)
    (hfollows : (Task.package directory id from?).Follows e given t) :
    ∃ place, t.loopError id from? = .circularImport place id (t.loopTo id) ∧
      Loop e given s₀ place id (t.loopTo id) := by
  obtain ⟨before, rest, hopened, hloop⟩ := h.sound.loopTo_eq hknown hstarted
  obtain ⟨x, hx⟩ := List.getLast?_isSome.2 (List.cons_ne_nil id rest) |> Option.isSome_iff_exists.1
  have hlast : t.opened.getLast? = some x := by
    rw [hopened, List.getLast?_append, hx, Option.some_or]
  obtain ⟨place, rfl, -, himports⟩ := hfollows.imported hlast
  have hmem {y : String} (hy : y ∈ id :: rest) : y ∈ t.opened :=
    hopened ▸ List.mem_append_right before hy
  have hpath := h.path
  rw [hopened] at hpath
  refine ⟨place, rfl, ?_⟩
  rw [hloop]
  refine ⟨?_, rfl, List.getLast?_concat, ?_, fun y hy => ?_, ?_, x, ?_, himports⟩
  · rw [List.length_append, List.length_cons]
    exact Nat.le_add_left 2 _
  · rw [List.dropLast_concat]
    refine h.sound.nodup_opened.sublist ?_
    rw [hopened]
    exact List.sublist_append_right before _
  · rcases List.mem_append.1 hy with hy | hy
    · exact h.new y (hmem hy)
    · exact h.new y (hmem (List.mem_singleton.1 hy ▸ List.mem_cons_self))
  · refine hpath.right_of_append.append (.singleton id) fun y hy z hz => ?_
    cases hx.symm.trans hy
    cases hz
    exact ⟨place, himports⟩
  · rw [List.length_append, List.length_singleton, List.getElem?_append_left, ← hx,
      List.getLast?_eq_getElem?]
    · rfl
    · exact Nat.lt_succ_self _

/-! ### A sample -/

/-- Directories `c`, `x` and `y` below the only import root: `c` imports `y` and `x`, and `x` imports
`c`. -/
def Surroundings.looping : Surroundings where
  tree := ⟨[(.ofNames ["w"], .directory), (.ofNames ["w", "c"], .directory),
    (.ofNames ["w", "c", "m.spec"], .file "import \"y\" import \"x\"".toUTF8),
    (.ofNames ["w", "x"], .directory),
    (.ofNames ["w", "x", "m.spec"], .file "import \"c\"".toUTF8),
    (.ofNames ["w", "y"], .directory), (.ofNames ["w", "y", "m.spec"], .file ⟨#[]⟩)]⟩
  workingDirectory := .ofNames ["w"]
  importPaths := []

/-- A package of one file that has these imports and nothing else. -/
def PackageOf.loopingOf {κ τ : Type} (id : String) (imports : List (Link κ)) : PackageOf κ τ :=
  ⟨id, .ofNames ["w", id], [⟨"m.spec", .ofNames ["w", id, "m.spec"], imports, []⟩], []⟩

theorem draft_looping : draft Surroundings.looping.tree (.ofNames ["w", "c"]) "c" =
    .ok (.loopingOf "c" [⟨"y", "y", ()⟩, ⟨"x", "x", ()⟩]) :=
  draft_of_single ⟨"m.spec", .ofNames ["w", "c", "m.spec"], "import \"y\" import \"x\""⟩
    rfl rfl rfl rfl (by cbv : parse "import \"y\" import \"x\"" =
      .ok ⟨[⟨none, "y"⟩, ⟨none, "x"⟩], [], []⟩) (by cbv)

theorem draft_looping_back : draft Surroundings.looping.tree (.ofNames ["w", "x"]) "x" =
    .ok (.loopingOf "x" [⟨"c", "c", ()⟩]) :=
  draft_of_single ⟨"m.spec", .ofNames ["w", "x", "m.spec"], "import \"c\""⟩ rfl rfl rfl rfl
    (by cbv : parse "import \"c\"" = .ok ⟨[⟨none, "c"⟩], [], []⟩) (by cbv)

theorem draft_looping_aside : draft Surroundings.looping.tree (.ofNames ["w", "y"]) "y" =
    .ok (.loopingOf "y" []) :=
  draft_of_single ⟨"m.spec", .ofNames ["w", "y", "m.spec"], ""⟩ rfl rfl rfl rfl
    (by cbv : parse "" = .ok ⟨[], [], []⟩) rfl

theorem call_looping :
    Surroundings.looping.call (.ofText "c") = .package (.ofNames ["w", "c"]) "c" none := by
  cbv

/-- The session in which `c` is open and its first import has led to `y`. -/
def Session.looping : Session :=
  ((Session.empty.start (.loopingOf "c" [⟨"y", "y", ()⟩, ⟨"x", "x", ()⟩])).start
    (.loopingOf "y" [])).finish 1 (.loopingOf "y" [])

/-- When the loop closes, `y` stands between `c` and `x`. -/
theorem attempt_looping : Session.empty.attempt .looping (.ofText "c") =
    (.error (.circularImport (.ofFile "x" "m.spec") "c" ["c", "x", "c"]), .empty) := by
  have haside : Compiles .looping
      (Session.empty.start (.loopingOf "c" [⟨"y", "y", ()⟩, ⟨"x", "x", ()⟩]))
      (.package (.ofNames ["w", "y"]) "y" (some (.ofFile "c" "m.spec"))) [1] .looping :=
    .fresh (p := .loopingOf "y" []) rfl draft_looping_aside .done rfl rfl
  have hplace : Surroundings.looping.directoryOf? "c" = some (.ofNames ["w", "c"]) := by cbv
  have hback : Fails .looping .looping
      (.package (.ofNames ["w", "x"]) "x" (some (.ofFile "c" "m.spec")))
      (.circularImport (.ofFile "x" "m.spec") "c" ["c", "x", "c"])
      (Session.looping.start (.loopingOf "x" [⟨"c", "c", ()⟩])) :=
    .imports rfl draft_looping_back (.first hplace (.loop rfl rfl))
  have hfails : Fails .looping .empty (.package (.ofNames ["w", "c"]) "c" none) _ _ :=
    .imports rfl draft_looping (.later (by cbv) haside (.first (by cbv) hback))
  rw [← call_looping] at hfails
  exact hfails.attempt .empty

/-! ### Calls -/

/-- **Reported loops are loops.** If a call fails with an error about a loop, the chain that it
names starts and ends with the package that it names and has no other repeats; each package of the
chain imports the next in the files that this call reads for it, and the place is that of a file of
the last but one that imports the package. -/
theorem loops_are_real (h : s.Reachable) (e : Surroundings) (given : Path) {place : Location}
    {package : String} {chain : List String}
    (hattempt : (s.attempt e given).1 = .error (.circularImport place package chain)) :
    Loop e given s place package chain := by
  rcases attempt_cases s e given with ⟨n, s', hattempt', -⟩ | ⟨err, s', hattempt', hfails⟩
  · rw [hattempt'] at hattempt
    cases hattempt
  · rw [hattempt'] at hattempt
    cases hattempt
    obtain ⟨t, directory, id, from?, hcomes, hknown, hstarted, herr⟩ := hfails.comesTo_loop rfl
    have hstart : s.OnPath e given s := .of_settled h.settled
    obtain ⟨hpath, hfollows⟩ := hcomes.onPath hstart ⟨h.settled.opened_eq, rfl, rfl⟩
    obtain ⟨place', hreport, hloop⟩ := hpath.loop hknown hstarted hfollows
    cases herr.trans hreport
    exact hloop

theorem loops_are_real_looping :
    Session.empty.Reachable ∧
      (Session.empty.attempt .looping (.ofText "c")).1 =
        .error (.circularImport (.ofFile "x" "m.spec") "c" ["c", "x", "c"]) ∧
      Loop .looping (.ofText "c") .empty (.ofFile "x" "m.spec") "c" ["c", "x", "c"] := by
  have hattempt := congrArg Prod.fst attempt_looping
  exact ⟨.empty, hattempt, loops_are_real .empty .looping (.ofText "c") hattempt⟩

end Backwire.Package
