import Backwire.Proofs.Package.Enforcement
import Backwire.Proofs.Schema.Formatting

/-!
# What packages call things

A package is made of texts that have been parsed, and a parsed text can be written again, so its
names are words. Types and tags are stored in other ways when a package is compiled, its names stay
as they were read: every definition of a session goes by a word, and so do its members
(`Session.Reachable.worded`).
-/

namespace Backwire.Schema

variable {τ ι : Type}

/-- **The members of a body go by words.** -/
def Body.Worded (b : Body τ ι) : Prop := ∀ name ∈ b.names, isName name

theorem Body.worded_of_isWellFormed {b : Body TypeName Int64} (h : b.isWellFormed) : b.Worded := by
  intro name hname
  cases b with
  | enum values =>
    obtain ⟨v, hv, rfl⟩ := List.mem_map.1 hname
    exact List.all_eq_true.1 h v hv
  | message fields =>
    obtain ⟨f, hf, rfl⟩ := List.mem_map.1 hname
    exact (Bool.and_eq_true_iff.1 (List.all_eq_true.1 h f hf)).1
  | struct fields =>
    obtain ⟨f, hf, rfl⟩ := List.mem_map.1 hname
    exact (Bool.and_eq_true_iff.1 (List.all_eq_true.1 h f hf)).1
  | service methods =>
    obtain ⟨m, hm, rfl⟩ := List.mem_map.1 hname
    have hwell := List.all_eq_true.1 h m hm
    rw [Method.isWellFormed, Bool.and_assoc] at hwell
    exact (Bool.and_eq_true_iff.1 hwell).1

end Backwire.Schema

namespace Backwire.Package

open Schema

variable {κ τ : Type} {t : FileTree} {e : Surroundings} {s s' : Session} {task : Task}
  {ns : List Nat}

/-- **A definition and its members go by words.** -/
def Declared.Worded (d : Declared τ) : Prop := isName d.name ∧ d.body.Worded

/-- **Every definition of a package goes by a word**, and so do its members. -/
def PackageOf.Worded (p : PackageOf κ τ) : Prop := ∀ d ∈ p.definitions, d.Worded

theorem PackageOf.ReadFrom.worded {d : Draft} (h : d.ReadFrom t) : d.Worded := by
  obtain ⟨parsed, hparsed, -, hdeclared⟩ := h
  intro declared hmem
  obtain ⟨⟨file, written⟩, hwritten, hname, -, hbody⟩ := exists_of_forall₂ hdeclared hmem
  obtain ⟨source, schema, hschema, hdefinition⟩ := mem_numbered.1 hwritten
  have hwell := wellFormed_of_parse (hparsed.parse _ (List.mem_of_getElem? hschema))
  obtain ⟨hword, hwell⟩ :=
    Bool.and_eq_true_iff.1 (List.all_eq_true.1 hwell.definitions written hdefinition)
  have hnames := congrArg Body.names hbody
  rw [Body.numbered, Body.numbered, Body.names_map, Body.names_map] at hnames
  refine ⟨hname ▸ hword, fun name hmember => ?_⟩
  exact Body.worded_of_isWellFormed hwell name (hnames ▸ hmember)

theorem PackageOf.worded_of_written {c : Compiled}
    (h : (c.map TypeUse.written).unlinked.Worded) : c.Worded := by
  intro d hd
  obtain ⟨hword, hbody⟩ := h (d.map TypeUse.written) (List.mem_map_of_mem hd)
  refine ⟨hword, fun name hname => hbody name ?_⟩
  rwa [Declared.map, Body.names_map]

/-- **Every definition of a session goes by a word**, and so do its members. -/
def Session.Worded (s : Session) : Prop := ∀ i c, s.package? i = some c → c.Worded

theorem Compiles.worded (h : Compiles e s task ns s') (hs : s.Worded) : s'.Worded := by
  intro i c hc
  rcases Nat.lt_or_ge i s.entries.length with hi | hi
  · rw [Session.package?_eq_some_iff, h.grows.getElem? hi] at hc
    exact hs i c (Session.package?_eq_some_iff.2 hc)
  · exact PackageOf.worded_of_written (h.readFrom hi hc).worded

theorem Session.Reachable.worded (h : s.Reachable) : s.Worded :=
  h.keeps nofun fun _ hcompiles => hcompiles.worded

end Backwire.Package
