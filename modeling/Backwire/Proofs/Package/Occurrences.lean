import Backwire.Proofs.Package.Declarations
import Backwire.Package.Resolve

/-!
# Types where they are used

A type of a definition is used in a place: in a field, or in an argument or a result of a method.
`Body.types` and `PackageOf.occurrences` are the types of a body and of a package in the order of
the source, with the member that each belongs to. Replacing the leaves of a body goes through the
same list: it stops where the first leaf gives an error (`mapBody_eq_error_iff`), and else leaves
all but the leaves as it was (`mapBody_ok`).
-/

namespace Backwire.Schema

variable {τ σ ι κ : Type}

/-- The types of a body in the order of the source, each with the member it belongs to. A parameter
is a member of its method. -/
def Body.types : Body τ ι → List (String × Listed τ)
  | enum _ => []
  | message fields => fields.map fun f => (f.name, f.type)
  | struct fields => fields.map fun f => (f.name, f.type)
  | service methods => methods.flatMap fun m =>
    (m.args ++ m.results).map fun p => (m.name ++ "." ++ p.name, p.type)

end Backwire.Schema

namespace Backwire.Package

open Schema
open Wire (bind_eq_ok_iff bind_eq_error_iff pure_eq_ok_iff)

/-! ### Calculations that stop, side by side -/

section Stopping

variable {α β γ δ ε : Type} {F : α → Except ε β} {G : γ → Except ε δ} {err : ε}

theorem stopsAt_append {xs ys : List α} :
    StopsAt F (xs ++ ys) err ↔
      StopsAt F xs err ∨ (∀ x ∈ xs, ∃ b, F x = .ok b) ∧ StopsAt F ys err := by
  induction xs with
  | nil => simp [stopsAt_nil]
  | cons x xs ih =>
    rw [List.cons_append, stopsAt_cons, ih, stopsAt_cons, List.forall_mem_cons]
    tauto

/-- A calculation gives a result or an error. -/
theorem exists_ok_iff {r : Except ε β} : (∃ b, r = .ok b) ↔ ∀ err, r ≠ .error err := by
  cases r <;> simp

theorem forall_ok_iff {as : List α} :
    (∀ a ∈ as, ∃ b, F a = .ok b) ↔ ∀ err, ¬ StopsAt F as err := by
  rw [← exists_mapM_eq_ok_iff, exists_ok_iff]
  exact forall_congr' fun err => not_congr mapM_eq_error_iff

/-- **What stops where the parts of its members stop** stops where the first of all parts does. -/
theorem stopsAt_flatMap {as : List α} {parts : α → List γ}
    (h : ∀ a ∈ as, ∀ err, F a = .error err ↔ StopsAt G (parts a) err) :
    StopsAt F as err ↔ StopsAt G (as.flatMap parts) err := by
  induction as with
  | nil => simp [stopsAt_nil]
  | cons a as ih =>
    obtain ⟨ha, has⟩ := List.forall_mem_cons.1 h
    have hok : (∃ b, F a = .ok b) ↔ ∀ c ∈ parts a, ∃ d, G c = .ok d := by
      rw [exists_ok_iff, forall_ok_iff]
      exact forall_congr' fun err => not_congr (ha err)
    rw [stopsAt_cons, List.flatMap_cons, stopsAt_append, ha, hok, ih has]

theorem stopsAt_map {as : List α} {part : α → γ}
    (h : ∀ a err, F a = .error err ↔ G (part a) = .error err) :
    StopsAt F as err ↔ StopsAt G (as.map part) err := by
  rw [List.map_eq_flatMap]
  refine stopsAt_flatMap fun a _ err => ?_
  rw [h, stopsAt_cons]
  simp [stopsAt_nil]

/-- What is calculated from the members of a list and tells them back. -/
theorem forall_of_mapM {as : List α} {bs : List β} {u : β → α} {P : β → Prop}
    (hF : ∀ a b, F a = .ok b → u b = a ∧ P b) (h : as.mapM F = .ok bs) :
    bs.map u = as ∧ ∀ b ∈ bs, P b := by
  have hall := mapM_eq_ok_iff.1 h
  constructor
  · exact (map_eq_map_of_forall₂ (hall.flip.imp fun b a hb => (hF a b hb).1)).trans (List.map_id _)
  · intro b hb
    obtain ⟨a, -, hab⟩ := exists_of_forall₂ hall hb
    exact (hF a b hab).2

end Stopping

/-! ### Replacing the leaves of a body -/

section Leaves

variable {ε σ τ ι : Type} {f : String → τ → Except ε σ} {forget : σ → τ} {member : String → String}
  {err : ε}

theorem bind_pure_eq_error_iff {α β : Type} {x : Except ε α} {k : α → β} :
    (x >>= fun a => pure (k a)) = .error err ↔ x = .error err := by
  rw [bind_eq_error_iff]
  exact ⟨fun h => h.resolve_right (fun ⟨_, _, h⟩ => nomatch h), .inl⟩

theorem mapParameter_eq_error_iff {p : Parameter τ} :
    mapParameter f member p = .error err ↔ f (member p.name) p.type.leaf = .error err :=
  bind_pure_eq_error_iff.trans bind_pure_eq_error_iff

/-- **The leaves of a body are replaced** one after another, up to the first error. -/
theorem mapBody_eq_error_iff {b : Body τ ι} :
    mapBody f b = .error err ↔ StopsAt (fun x => f x.1 x.2.leaf) b.types err := by
  cases b with
  | enum => exact ⟨nofun, fun h => absurd h stopsAt_nil⟩
  | message fields =>
    refine bind_pure_eq_error_iff.trans (mapM_eq_error_iff.trans (stopsAt_map fun d err => ?_))
    exact bind_pure_eq_error_iff.trans bind_pure_eq_error_iff
  | struct fields =>
    refine bind_pure_eq_error_iff.trans (mapM_eq_error_iff.trans (stopsAt_map fun p err => ?_))
    exact mapParameter_eq_error_iff
  | service methods =>
    refine bind_pure_eq_error_iff.trans
      (mapM_eq_error_iff.trans (stopsAt_flatMap fun m _ err => ?_))
    -- a method is gone through like the list of its arguments and results
    have hlist : StopsAt (mapParameter f fun name => m.name ++ "." ++ name) (m.args ++ m.results)
        err ↔ StopsAt (fun x : String × Listed τ => f x.1 x.2.leaf)
          ((m.args ++ m.results).map fun p => (m.name ++ "." ++ p.name, p.type)) err :=
      stopsAt_map fun _ _ => mapParameter_eq_error_iff
    rw [← hlist, stopsAt_append, ← exists_mapM_eq_ok_iff, ← mapM_eq_error_iff, ← mapM_eq_error_iff]
    refine bind_eq_error_iff.trans (or_congr_right ?_)
    simp only [bind_pure_eq_error_iff, exists_and_right]

section Forget

variable (hforget : ∀ m x y, f m x = .ok y → forget y = x)
include hforget

theorem mapLeaf_ok {m : String} {t : Listed τ} {t' : Listed σ} (h : mapLeaf (f m) t = .ok t') :
    t'.map forget = t ∧ f m (forget t'.leaf) = .ok t'.leaf := by
  obtain ⟨y, hy, h⟩ := bind_eq_ok_iff.1 h
  cases h
  have hx := hforget _ _ _ hy
  exact ⟨congrArg (Listed.mk t.depth) hx, hx.symm ▸ hy⟩

theorem mapParameter_ok {p : Parameter τ} {p' : Parameter σ}
    (h : mapParameter f member p = .ok p') :
    p'.map forget = p ∧ f (member p'.name) (forget p'.type.leaf) = .ok p'.type.leaf := by
  obtain ⟨t, ht, h⟩ := bind_eq_ok_iff.1 h
  cases h
  obtain ⟨hmap, hleaf⟩ := mapLeaf_ok hforget ht
  exact ⟨congrArg (Parameter.mk p.name) hmap, hleaf⟩

/-- **A body whose leaves have been replaced** is the same body but for them, as far as `forget`
tells what stood in the place of a leaf. -/
theorem mapBody_ok {b : Body τ ι} {b' : Body σ ι} (h : mapBody f b = .ok b') :
    b'.map forget id = b ∧ ∀ x ∈ b'.types, f x.1 (forget x.2.leaf) = .ok x.2.leaf := by
  cases b with
  | enum =>
    cases h
    exact ⟨rfl, nofun⟩
  | message fields =>
    obtain ⟨fields', hfields, h⟩ := bind_eq_ok_iff.1 h
    cases h
    obtain ⟨hmap, hall⟩ := forall_of_mapM (u := Schema.Field.map forget id)
      (P := fun d => f d.name (forget d.type.leaf) = .ok d.type.leaf) (fun d d' hd => by
        obtain ⟨t, ht, hd⟩ := bind_eq_ok_iff.1 hd
        cases hd
        obtain ⟨hmap, hleaf⟩ := mapLeaf_ok hforget ht
        exact ⟨congrArg (Schema.Field.mk d.name · d.tag) hmap, hleaf⟩) hfields
    exact ⟨congrArg Body.message hmap, List.forall_mem_map.2 hall⟩
  | struct fields =>
    obtain ⟨fields', hfields, h⟩ := bind_eq_ok_iff.1 h
    cases h
    obtain ⟨hmap, hall⟩ := forall_of_mapM (fun _ _ => mapParameter_ok hforget) hfields
    exact ⟨congrArg Body.struct hmap, List.forall_mem_map.2 hall⟩
  | service methods =>
    obtain ⟨methods', hmethods, h⟩ := bind_eq_ok_iff.1 h
    cases h
    obtain ⟨hmap, hall⟩ := forall_of_mapM (u := Method.map forget)
      (P := fun m => ∀ p ∈ m.args ++ m.results,
        f (m.name ++ "." ++ p.name) (forget p.type.leaf) = .ok p.type.leaf) (fun m m' hm => by
        obtain ⟨args, hargs, hm⟩ := bind_eq_ok_iff.1 hm
        obtain ⟨results, hresults, hm⟩ := bind_eq_ok_iff.1 hm
        cases hm
        obtain ⟨hargs, hallArgs⟩ := forall_of_mapM (fun _ _ => mapParameter_ok hforget) hargs
        obtain ⟨hresults, hallResults⟩ :=
          forall_of_mapM (fun _ _ => mapParameter_ok hforget) hresults
        refine ⟨congrArg₂ (Method.mk m.name) hargs hresults, fun p hp => ?_⟩
        rcases List.mem_append.1 hp with hp | hp
        · exact hallArgs p hp
        · exact hallResults p hp) hmethods
    refine ⟨congrArg Body.service hmap, fun x hx => ?_⟩
    obtain ⟨m, hm, hx⟩ := List.mem_flatMap.1 hx
    obtain ⟨p, hp, rfl⟩ := List.mem_map.1 hx
    exact hall m hm p hp

end Forget

end Leaves

/-! ### Types in their places -/

section Places

variable {κ τ σ : Type}

/-- The same definition with other types. -/
def Declared.map (leaf : τ → σ) (d : Declared τ) : Declared σ :=
  ⟨d.name, d.file, d.body.map leaf id⟩

@[simp] theorem Declared.kind?_map (leaf : τ → σ) (d : Declared τ) :
    (d.map leaf).kind? = d.kind? := by
  obtain ⟨name, file, body⟩ := d
  cases body <;> rfl

/-- The same package with other types. -/
def PackageOf.map (leaf : τ → σ) (p : PackageOf κ τ) : PackageOf κ σ :=
  ⟨p.id, p.directory, p.files, p.definitions.map (Declared.map leaf)⟩

/-- The leaf of a type, whatever it was found to be. -/
def TypeUse.written : TypeUse → TypeName
  | builtin b => .builtin b
  | named r _ => .named r

/-- A type in the place where it is used. -/
structure Occurrence (τ : Type) where
  /-- The definition that uses the type. -/
  definition : Declared τ
  /-- The member that has the type. -/
  member : String
  type : Listed τ

/-- All types of a definition in the order of the source. -/
def Declared.occurrences (d : Declared τ) : List (Occurrence τ) :=
  d.body.types.map fun x => ⟨d, x.1, x.2⟩

namespace PackageOf

/-- All types that a package uses, in the order of its definitions and of the source. -/
def occurrences (p : PackageOf κ τ) : List (Occurrence τ) :=
  p.definitions.flatMap Declared.occurrences

/-- The place of a type. -/
def placeOf (p : PackageOf κ τ) (o : Occurrence τ) : Location :=
  (p.locate o.definition).member o.member

end PackageOf

end Places

end Backwire.Package
