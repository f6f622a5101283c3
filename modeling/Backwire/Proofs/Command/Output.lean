import Backwire.Command.Program
import Backwire.Proofs.Package.FileTrees
import Backwire.Proofs.Wire.Ending

/-!
# What a failed write leaves

Files are written in two passes: all of them are filled under new names, and then each is moved to
its place. On any disk, either pass may fail at any of the files, and what has been made until then
is taken away. Here is shown what that leaves.

A failure of the first pass leaves what there was (`stageFiles_cases`): the new files are the only
thing that was changed (`Staged`), and they are gone. A failure of the second pass, behind some of
the files (`Stops`), leaves what there was without the places that were filled (`placeFiles_error`,
by `Placed`): a file that was moved to its place is taken away, and what stood there before is not
brought back. So what a failed write loses depends on what it failed at (`Loses`), and all files are
as they were exactly if none of them was replaced (`writeFiles_error`).
-/

namespace Backwire.Command

open Package FileTree
open Bindings (SourceFile)
open Wire (bind_eq_ok_iff)

variable {α β : Type} {w : World} {disk : Disk} {t t₀ t₁ t' : FileTree}
  {p q directory new : Path} {ps staged placed : List Path} {e : Failure}

/-! ### Actions -/

namespace Action

theorem bind_eq (x : Action α) (f : α → Action β) :
    (x >>= f) t = match x t with
      | .ok a t' => f a t'
      | .error e t' => .error e t' := by
  change EStateM.bind x f t = _
  unfold EStateM.bind
  cases x t <;> rfl

/-- An action in two steps fails where one of them does. -/
theorem bind_eq_error_iff {x : Action α} {f : α → Action β} :
    (x >>= f) t = .error e t' ↔
      x t = .error e t' ∨ ∃ a t₁, x t = .ok a t₁ ∧ f a t₁ = .error e t' := by
  rw [bind_eq]
  cases x t <;> simp

theorem require_eq {ε : Type} (failure : ε → Failure) (r : Except ε α) :
    Action.require failure r t = match r with
      | .ok a => .ok a t
      | .error e => .error (failure e) t := by
  cases r <;> rfl

theorem get_bind (f : FileTree → Action α) : (get >>= f) t = f t t := rfl

theorem set_bind (f : PUnit → Action α) : (set t' >>= f) t = f () t' := rfl

/-- What an action leaves, whether it fails or not. -/
def leaves (a : Action α) (t : FileTree) : FileTree :=
  match a t with
  | .ok _ t' => t'
  | .error _ t' => t'

theorem leaves_of_ok {x : Action α} {a : α} (h : x t = .ok a t') : x.leaves t = t' := by
  rw [leaves, h]

theorem leaves_of_error {x : Action α} (h : x t = .error e t') : x.leaves t = t' := by
  rw [leaves, h]

end Action

/-! ### Making directories -/

/-- The tree has what there was, and possibly further directories. -/
def Grown (t t' : FileTree) : Prop :=
  ∀ p, t'.node? p = t.node? p ∨ t.node? p = none ∧ t'.node? p = some .directory

theorem Grown.refl (t : FileTree) : Grown t t := fun _ => .inl rfl

theorem Grown.trans (h : Grown t t₁) (h' : Grown t₁ t') : Grown t t' := fun p => by
  have := h p
  have := h' p
  grind

theorem grown_of_makeDirectory {start : Path} (h : t.makeDirectory start p = .ok t') :
    Grown t t' := by
  obtain ⟨-, -, h⟩ := bind_eq_ok_iff.1 h
  obtain ⟨above, -, h⟩ := bind_eq_ok_iff.1 h
  split at h
  · split at h
    · rename_i name hname
      split at h
      · cases h
      · split at h
        · cases h
        · rename_i hnone
          cases h
          intro q
          rw [node?_put (above.child_ne_root name)]
          split
          · rename_i hq
            exact .inr ⟨by simpa [hq] using hnone, rfl⟩
          · exact .inl rfl
    · cases h
  · cases h

/-- The action makes directories and does nothing else, whether it fails or not. -/
def Prepares (a : Action α) : Prop := ∀ t, Grown t (a.leaves t)

namespace Prepares

theorem pure (a : α) : Prepares (Pure.pure a) := Grown.refl

theorem bind {x : Action α} {f : α → Action β} (hx : Prepares x) (hf : ∀ a, Prepares (f a)) :
    Prepares (x >>= f) := fun t => by
  have hgrown := hx t
  unfold Action.leaves at hgrown ⊢
  rw [Action.bind_eq]
  cases hresult : x t with
  | error e t₁ =>
    rw [hresult] at hgrown
    exact hgrown
  | ok a t₁ =>
    rw [hresult] at hgrown
    exact hgrown.trans (hf a t₁)

theorem get_bind {f : FileTree → Action α} (hf : ∀ t, Prepares (f t)) : Prepares (get >>= f) :=
  fun t => hf t t

theorem ite {P : Prop} [Decidable P] {x y : Action α} (hx : Prepares x) (hy : Prepares y) :
    Prepares (if P then x else y) := by
  split
  · exact hx
  · exact hy

theorem makeDirectory (w : World) (report : FileFault → Failure) (p : Path) :
    Prepares (makeDirectory w report p) := by
  refine fun t => ?_
  cases hmade : t.makeDirectory w.workingDirectory p with
  | ok t' =>
    have hleaves : (Command.makeDirectory w report p).leaves t = t' := by
      rw [Action.leaves, Command.makeDirectory, Action.get_bind, hmade]
      rfl
    exact hleaves ▸ grown_of_makeDirectory hmade
  | error fault =>
    have hleaves : (Command.makeDirectory w report p).leaves t = t := by
      rw [Action.leaves, Command.makeDirectory, Action.get_bind, hmade]
      dsimp only
      by_cases hthere : leadsToDirectory w t p
      · rw [if_neg (not_not_intro hthere)]
        rfl
      · rw [if_pos hthere]
        rfl
    exact hleaves.symm ▸ Grown.refl t

theorem makeDirectories (w : World) (report : FileFault → Failure) (isAbsolute : Bool)
    (steps : List Step) : Prepares (makeDirectories w report isAbsolute steps) := by
  induction steps with
  | nil => exact .pure ()
  | cons s above ih =>
    exact .get_bind fun t =>
      .ite (ih.bind fun _ => makeDirectory w report _) (makeDirectory w report _)

theorem makeOutput (w : World) (output : String) : Prepares (makeOutput w output) :=
  .get_bind fun _ => .ite ((makeDirectories w _ _ _).bind fun _ => makeDirectory w _ _)
    (makeDirectory w _ _)

end Prepares

/-! ### Filling new files -/

/-- **The new files are all that was changed**: nothing stood there before, and now files do. -/
structure Staged (t₀ t : FileTree) (staged : List Path) : Prop where
  free : ∀ p ∈ staged, t₀.node? p = none
  file : ∀ p ∈ staged, t.isFile p
  old : ∀ p ∉ staged, t.node? p = t₀.node? p

namespace Staged

theorem nil (t : FileTree) : Staged t t [] := ⟨nofun, nofun, fun _ _ => rfl⟩

theorem ne_root (h : Staged t₀ t staged) (hp : p ∈ staged) : p ≠ .root := by
  rintro rfl
  exact absurd (h.free _ hp) (by simp)

/-- One of the new files is filled. -/
theorem fill (h : Staged t₀ t staged) (hp : p ∈ staged) (content : ByteArray) :
    Staged t₀ (t.put p (.file content)) staged where
  free := h.free
  file q hq := by
    rw [isFile_iff, node?_put (h.ne_root hp)]
    split
    · exact ⟨content, rfl⟩
    · exact isFile_iff.1 (h.file q hq)
  old q hq := by
    have hqp : q ≠ p := fun hqp => hq (hqp ▸ hp)
    rw [node?_put (h.ne_root hp), if_neg hqp, h.old q hq]

/-- A new file is made where nothing stands. -/
theorem make (h : Staged t₀ t staged) (hp : p ≠ .root) (hfree : t.node? p = none)
    (content : ByteArray) : Staged t₀ (t.put p (.file content)) (staged ++ [p]) where
  free := by
    have hnew : p ∉ staged := fun hmem => by
      obtain ⟨content, hfile⟩ := isFile_iff.1 (h.file p hmem)
      cases hfree.symm.trans hfile
    rw [List.forall_mem_append, List.forall_mem_singleton]
    exact ⟨h.free, h.old p hnew ▸ hfree⟩
  file q hq := by
    rw [isFile_iff, node?_put hp]
    split
    · exact ⟨content, rfl⟩
    · rename_i hqp
      exact isFile_iff.1 (h.file q ((List.mem_append.1 hq).resolve_right (by simpa using hqp)))
  old q hq := by
    rw [List.mem_append, List.mem_singleton, not_or] at hq
    rw [node?_put hp, if_neg hq.2, h.old q hq.1]

/-- Nothing is changed when the new files are removed. -/
theorem removed (h : Staged t₀ t staged) : (staged.foldl removeFile t).node? p = t₀.node? p := by
  rw [node?_foldl_removeFile]
  by_cases hp : p ∈ staged
  · rw [if_pos ⟨hp, h.file p hp⟩, h.free p hp]
  · rw [if_neg fun h' => hp h'.1, h.old p hp]

end Staged

variable {report : String → FileFault → Failure} {f : SourceFile} {fs : List SourceFile}

/-- One step of the first pass: a new file is made, and filled. -/
theorem stageFiles_cons (disk : Disk) (report : String → FileFault → Failure) (directory : Path)
    (staged : List Path) (f : SourceFile) (fs : List SourceFile) (t : FileTree) :
    stageFiles disk report directory staged (f :: fs) t =
      let new := directory.child (disk.newName t directory)
      let made := t.put new (.file .empty)
      match disk.fault? t (.make new), disk.fault? made (.fill new f.text.toUTF8) with
      | some fault, _ => .error (report f.name fault) (staged.foldl removeFile t)
      | none, some fault =>
        .error (report f.name fault) ((staged ++ [new]).foldl removeFile made)
      | none, none =>
        stageFiles disk report directory (staged ++ [new]) fs
          (made.put new (.file f.text.toUTF8)) := by
  rw [stageFiles, Action.get_bind]
  dsimp only
  cases disk.fault? t (.make (directory.child (disk.newName t directory))) with
  | some fault => rfl
  | none =>
    dsimp only
    rw [Action.set_bind]
    cases disk.fault? (t.put (directory.child (disk.newName t directory)) (.file .empty))
      (.fill (directory.child (disk.newName t directory)) f.text.toUTF8) <;> rfl

/-- **The first pass** makes a new file for each of the files, or leaves what there was. -/
theorem stageFiles_cases (disk : Disk) (report : String → FileFault → Failure) (directory : Path)
    (fs : List SourceFile) (h : Staged t₀ t staged) :
    (∃ made t', stageFiles disk report directory staged fs t = .ok (staged ++ made) t' ∧
      made.length = fs.length ∧ Staged t₀ t' (staged ++ made)) ∨
    ∃ e t', stageFiles disk report directory staged fs t = .error e t' ∧
      ∀ p, t'.node? p = t₀.node? p := by
  induction fs generalizing t staged with
  | nil => exact .inl ⟨[], t, by rw [List.append_nil]; rfl, rfl, by rwa [List.append_nil]⟩
  | cons f fs ih =>
    rw [stageFiles_cons]
    have hfree := disk.newName_free t directory
    have hroot := directory.child_ne_root (disk.newName t directory)
    dsimp only
    generalize directory.child (disk.newName t directory) = new at hfree hroot ⊢
    have hmade := h.make hroot hfree .empty
    split
    · exact .inr ⟨_, _, rfl, fun _ => h.removed⟩
    · exact .inr ⟨_, _, rfl, fun _ => hmade.removed⟩
    · have hfilled := hmade.fill (List.mem_append_right _ (List.mem_singleton_self new))
        f.text.toUTF8
      obtain ⟨made, t', hok, hlength, hstaged⟩ | herror := ih hfilled
      · rw [List.append_assoc] at hok hstaged
        exact .inl ⟨new :: made, t', hok, congrArg Nat.succ hlength, hstaged⟩
      · exact .inr herror

/-! ### Moving files to their places -/

/-- The places of files in a directory. -/
def places (directory : Path) (files : List SourceFile) : List Path :=
  files.map fun f => directory.child f.name

/-- **Only places that were filled and new files were changed**: neither are directories, and where
the new files are nothing stood before. -/
structure Placed (t₀ t : FileTree) (placed news : List Path) : Prop where
  free : ∀ p ∈ news, t₀.node? p = none
  noDirectory : ∀ p ∈ placed, t₀.node? p ≠ some .directory
  still : ∀ p ∈ placed ++ news, t.node? p ≠ some .directory
  old : ∀ p ∉ placed ++ news, t.node? p = t₀.node? p

namespace Placed

variable {news : List Path}

theorem ofStaged (h : Staged t₀ t news) : Placed t₀ t [] news where
  free := h.free
  noDirectory := nofun
  still p hp hdirectory := by
    obtain ⟨content, hfile⟩ := isFile_iff.1 (h.file p hp)
    cases hdirectory.symm.trans hfile
  old := h.old

/-- A new file is moved to a place where no directory stands. -/
theorem move (h : Placed t₀ t placed (p :: news)) (hq : q ≠ .root)
    (hplace : t.isDirectory q = false) (hfile : t.isFile p) :
    Placed t₀ (t.moveFile p q) (placed ++ [q]) news := by
  obtain ⟨content, hfile⟩ := isFile_iff.1 hfile
  have hplace : t.node? q ≠ some .directory := fun hq' => by
    rw [isDirectory_iff.2 hq'] at hplace
    cases hplace
  refine ⟨fun r hr => h.free r (List.mem_cons_of_mem p hr), ?_, fun r hr => ?_, fun r hr => ?_⟩
  · rw [List.forall_mem_append, List.forall_mem_singleton]
    refine ⟨h.noDirectory, ?_⟩
    by_cases hold : q ∈ placed ++ p :: news
    · rcases List.mem_append.1 hold with hold | hold
      · exact h.noDirectory q hold
      · rw [h.free q hold]
        nofun
    · rwa [← h.old q hold]
  · rw [node?_moveFile hq hfile]
    split
    · nofun
    · split
      · nofun
      · rename_i hrq hrp
        refine h.still r ?_
        simp only [List.mem_append, List.mem_cons, List.not_mem_nil, or_false] at hr ⊢
        grind
  · simp only [List.mem_append, List.mem_cons, List.not_mem_nil, or_false] at hr
    rw [node?_moveFile hq hfile, if_neg (by grind)]
    split
    · rename_i hrp
      rw [hrp, h.free p List.mem_cons_self]
    · rename_i hrp
      exact h.old r (by simp; grind)

/-- When all of them are removed, the places that were filled are empty. -/
theorem removed (h : Placed t₀ t placed news) :
    ((placed ++ news).foldl removeFile t).node? p = if p ∈ placed then none else t₀.node? p := by
  rw [node?_foldl_removeFile]
  by_cases hp : p ∈ placed ++ news
  · have hgone : (if p ∈ placed ++ news ∧ t.isFile p then none else t.node? p) = none := by
      split
      · rfl
      · rename_i hfile
        exact node?_eq_none (fun h' => hfile ⟨hp, h'⟩) (h.still p hp)
    rw [hgone]
    split
    · rfl
    · rename_i hplaced
      exact (h.free p ((List.mem_append.1 hp).resolve_left hplaced)).symm
  · rw [if_neg fun h' => hp h'.1, h.old p hp, if_neg fun h' => hp (List.mem_append_left news h')]

end Placed

/-- What lets a new file be moved to its place. -/
theorem moveFault?_eq_none {name : String} (h : moveFault? disk t directory new name = none) :
    t.isDirectory (directory.child name) = false ∧ t.isFile new := by
  unfold moveFault? at h
  grind

/-- **Where the second pass stops**: the files that have been moved to their places when the next
one cannot be. -/
inductive Stops (disk : Disk) (report : String → FileFault → Failure) (directory : Path) :
    List (Path × SourceFile) → FileTree → Failure → List SourceFile → Prop
  | here {new : Path} {f : SourceFile} {rest : List (Path × SourceFile)} {t : FileTree}
      {fault : FileFault} (fails : moveFault? disk t directory new f.name = some fault) :
      Stops disk report directory ((new, f) :: rest) t (report f.name fault) []
  | behind {new : Path} {f : SourceFile} {rest : List (Path × SourceFile)} {t : FileTree}
      {e : Failure} {done : List SourceFile} (moves : moveFault? disk t directory new f.name = none)
      (stops : Stops disk report directory rest (t.moveFile new (directory.child f.name)) e done) :
      Stops disk report directory ((new, f) :: rest) t e (f :: done)

/-- **The second pass**, when it fails, leaves what there was without the places that were filled
until then. -/
theorem placeFiles_error {rest : List (Path × SourceFile)}
    (h : Placed t₀ t placed (rest.map Prod.fst))
    (herror : placeFiles disk report directory placed rest t = .error e t') :
    ∃ done, Stops disk report directory rest t e done ∧
      (∀ p ∈ placed ++ places directory done, t₀.node? p ≠ some .directory) ∧
      ∀ p, t'.node? p = if p ∈ placed ++ places directory done then none else t₀.node? p := by
  induction rest generalizing t placed with
  | nil => cases herror
  | cons x rest ih =>
    obtain ⟨new, f⟩ := x
    rw [placeFiles, Action.get_bind] at herror
    cases hfault : moveFault? disk t directory new f.name with
    | some fault =>
      rw [hfault] at herror
      cases herror
      refine ⟨[], .here hfault, ?_⟩
      rw [places, List.map_nil, List.append_nil]
      exact ⟨h.noDirectory, fun _ => h.removed⟩
    | none =>
      rw [hfault] at herror
      obtain ⟨hplace, hfile⟩ := moveFault?_eq_none hfault
      have hmoved := h.move (directory.child_ne_root f.name) hplace hfile
      obtain ⟨done, hstops, hleft⟩ := ih hmoved herror
      rw [List.append_assoc] at hleft
      exact ⟨f :: done, .behind hfault hstops, hleft⟩

/-! ### Both passes -/

/-- Both passes, when one of them fails. -/
theorem stageFiles_placeFiles_error
    (herror : (do
      let staged ← stageFiles disk report directory [] fs
      placeFiles disk report directory [] (staged.zip fs) : Action Unit) t = .error e t') :
    (stageFiles disk report directory [] fs t = .error e t' ∧ ∀ p, t'.node? p = t.node? p) ∨
    ∃ news t₁ done, stageFiles disk report directory [] fs t = .ok news t₁ ∧
      Stops disk report directory (news.zip fs) t₁ e done ∧
      (∀ p ∈ places directory done, t.node? p ≠ some .directory) ∧
      ∀ p, t'.node? p = if p ∈ places directory done then none else t.node? p := by
  obtain ⟨news, t₁, hok, hlength, hstaged⟩ | ⟨e', t₁, herror', hsame⟩ :=
    stageFiles_cases disk report directory fs (Staged.nil t)
  · rw [Action.bind_eq, hok] at herror
    rw [List.nil_append] at hok herror hstaged
    have hplaced : Placed t t₁ [] ((news.zip fs).map Prod.fst) := by
      rw [List.map_fst_zip (Nat.le_of_eq hlength)]
      exact .ofStaged hstaged
    obtain ⟨done, hstops, hleft⟩ := placeFiles_error hplaced herror
    exact .inr ⟨news, t₁, done, hok, hstops, hleft⟩
  · rw [Action.bind_eq, herror'] at herror
    cases herror
    exact .inl ⟨herror', hsame⟩

/-- **What a failure leaves** of a tree: all directories, and of the files those that are not
lost. -/
structure Leaves (t t' : FileTree) (lost : List Path) : Prop where
  directory : ∀ p, t.node? p = some .directory → t'.node? p = some .directory
  file : ∀ p content,
    t'.node? p = some (.file content) ↔ t.node? p = some (.file content) ∧ p ∉ lost

/-- The files of two trees are the same. -/
def SameFiles (t t' : FileTree) : Prop :=
  ∀ p content, t'.node? p = some (.file content) ↔ t.node? p = some (.file content)

theorem Leaves.sameFiles_iff {lost : List Path} (h : Leaves t t' lost) :
    SameFiles t t' ↔ ∀ p ∈ lost, ¬t.isFile p := by
  constructor
  · rintro hsame p hp hfile
    obtain ⟨content, hfile⟩ := isFile_iff.1 hfile
    exact ((h.file p content).1 ((hsame p content).2 hfile)).2 hp
  · intro hlost p content
    rw [h.file p content, and_iff_left_of_imp]
    exact fun hfile hp => hlost p hp (isFile_iff.2 ⟨content, hfile⟩)

theorem Grown.leaves {lost : List Path} (h : Grown t t₁)
    (hlost : ∀ p ∈ lost, t₁.node? p ≠ some .directory)
    (hleft : ∀ p, t'.node? p = if p ∈ lost then none else t₁.node? p) : Leaves t t' lost where
  directory p hp := by
    have hp' : t₁.node? p = some .directory := by
      have := h p
      grind
    rw [hleft, if_neg fun hmem => hlost p hmem hp', hp']
  file p content := by
    have := h p
    rw [hleft]
    grind

/-- **The paths whose files a failed write loses**, by what it failed at: none as long as
directories are made and new files are filled, and afterwards the places that had been filled when a
file could not be moved to its own. -/
inductive Loses (w : World) (disk : Disk) (output : String) (files : List SourceFile) (t : FileTree)
    (e : Failure) : List Path → Prop
  /-- The directory cannot be made. -/
  | making {t₁ : FileTree} (fails : makeOutput w output t = .error e t₁) :
      Loses w disk output files t e []
  /-- The path of the directory leads nowhere when it has been made. -/
  | leading {t₁ : FileTree} {fault : FileFault} (made : makeOutput w output t = .ok () t₁)
      (fails : t₁.resolve w.workingDirectory (.ofText output) = .error fault)
      (failure : e = .create output fault) : Loses w disk output files t e []
  /-- A new file cannot be made or filled. -/
  | staging {t₁ t₂ : FileTree} {directory : Path} (made : makeOutput w output t = .ok () t₁)
      (leads : t₁.resolve w.workingDirectory (.ofText output) = .ok directory)
      (fails : stageFiles disk (Failure.write ∘ inside output) directory [] files t₁ =
        .error e t₂) : Loses w disk output files t e []
  /-- A new file cannot be moved to its place. -/
  | placing {t₁ t₂ : FileTree} {directory : Path} {news : List Path} {done : List SourceFile}
      (made : makeOutput w output t = .ok () t₁)
      (leads : t₁.resolve w.workingDirectory (.ofText output) = .ok directory)
      (staged : stageFiles disk (Failure.write ∘ inside output) directory [] files t₁ =
        .ok news t₂)
      (stops : Stops disk (Failure.write ∘ inside output) directory (news.zip files) t₂ e done) :
      Loses w disk output files t e (places directory done)

/-- **A failed write**, on any disk, leaves all directories and all files but those in the places
that had been filled; it adds no file and changes none. So the files are what they were exactly if
none of them stood in such a place, and always if no file was moved to its place. -/
theorem writeFiles_error {output : String} {files : List SourceFile}
    (h : writeFiles w disk output files t = .error e t') :
    ∃ lost, Loses w disk output files t e lost ∧ Leaves t t' lost ∧
      (SameFiles t t' ↔ ∀ p ∈ lost, ¬t.isFile p) := by
  suffices hleaves : ∃ lost, Loses w disk output files t e lost ∧ Leaves t t' lost by
    obtain ⟨lost, hloses, hleaves⟩ := hleaves
    exact ⟨lost, hloses, hleaves, hleaves.sameFiles_iff⟩
  have hgrown := Prepares.makeOutput w output t
  rcases Action.bind_eq_error_iff.1 h with h | ⟨_, t₁, hmade, h⟩
  · rw [Action.leaves_of_error h] at hgrown
    exact ⟨[], .making h, hgrown.leaves nofun fun _ => rfl⟩
  rw [Action.leaves_of_ok hmade] at hgrown
  rw [Action.get_bind, Action.bind_eq_error_iff, Action.require_eq] at h
  cases hleads : t₁.resolve w.workingDirectory (.ofText output) with
  | error fault =>
    obtain h | ⟨_, _, h, -⟩ := hleads ▸ h
    · cases h
      exact ⟨[], .leading hmade hleads rfl, hgrown.leaves nofun fun _ => rfl⟩
    · cases h
  | ok directory =>
    obtain h | ⟨_, _, hdirectory, h⟩ := hleads ▸ h
    · cases h
    cases hdirectory
    obtain ⟨hstaging, hsame⟩ | ⟨news, t₂, done, hstaged, hstops, hplaces, hleft⟩ :=
      stageFiles_placeFiles_error h
    · exact ⟨[], .staging hmade hleads hstaging, hgrown.leaves nofun hsame⟩
    · exact ⟨_, .placing hmade hleads hstaged hstops, hgrown.leaves hplaces hleft⟩

/-! ### A file that is lost -/

/-- A directory with a file in it, and another directory where a file is to be put. -/
def World.blocked : World where
  tree := ⟨[(Path.root.child "out", .directory),
    ((Path.root.child "out").child "m.rs", .file "// kept".toUTF8),
    ((Path.root.child "out").child "mod.rs", .directory)]⟩
  workingDirectory := .root
  searchPath? := none

/-- What is left when its file is lost. -/
def bereft : FileTree :=
  ⟨[(Path.root.child "out", .directory), ((Path.root.child "out").child "mod.rs", .directory)]⟩

/-- Two files under the names of what is there. -/
def blockedFiles : List SourceFile := [⟨"m.rs", none, []⟩, ⟨"mod.rs", none, []⟩]

/-- The file in the place of the first one is lost when the second one cannot be moved. -/
theorem writeFiles_error_blocked :
    writeFiles .blocked .reliable "out" blockedFiles World.blocked.tree =
      .error (.write "out/mod.rs" .isDirectory) bereft ∧
    ∃ lost, Loses .blocked .reliable "out" blockedFiles World.blocked.tree
        (.write "out/mod.rs" .isDirectory) lost ∧
      Leaves World.blocked.tree bereft lost ∧
      (Path.root.child "out").child "m.rs" ∈ lost ∧ ¬SameFiles World.blocked.tree bereft := by
  have hwrite : writeFiles .blocked .reliable "out" blockedFiles World.blocked.tree =
      .error (.write "out/mod.rs" .isDirectory) bereft := rfl
  have hthere : World.blocked.tree.node? ((Path.root.child "out").child "m.rs") =
      some (.file "// kept".toUTF8) := by decide +kernel
  have hgone : bereft.node? ((Path.root.child "out").child "m.rs") = none := by decide +kernel
  obtain ⟨lost, hloses, hleaves, hsame⟩ := writeFiles_error hwrite
  have hlost : (Path.root.child "out").child "m.rs" ∈ lost := by
    by_contra hkept
    cases hgone.symm.trans ((hleaves.file _ _).2 ⟨hthere, hkept⟩)
  exact ⟨hwrite, lost, hloses, hleaves, hlost,
    fun h => hsame.1 h _ hlost (isFile_iff.2 ⟨_, hthere⟩)⟩

/-- **A file is lost** although nothing was written: the first of two files replaces it, the second
one cannot be moved to its place, and then the first one is taken away. -/
theorem writeFiles_loses_file :
    (blockedFiles.map SourceFile.name).Nodup ∧
    writeFiles .blocked .reliable "out" blockedFiles World.blocked.tree =
      .error (.write "out/mod.rs" .isDirectory) bereft ∧
    World.blocked.tree.node? ((Path.root.child "out").child "m.rs") =
      some (.file "// kept".toUTF8) ∧
    bereft.node? ((Path.root.child "out").child "m.rs") = none :=
  ⟨by decide, rfl, by decide +kernel, by decide +kernel⟩

end Backwire.Command
