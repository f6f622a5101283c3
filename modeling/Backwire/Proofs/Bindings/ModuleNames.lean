import Backwire.Proofs.Bindings.Clashes

/-!
# Where bindings are written

The bindings of a schema file are written to a file of the name of a module, which is made of the
name of the schema file, whatever characters that has. It is a word in snake case that is not kept
for the language (`isModuleWord_moduleName`): small forms of letters are never capitals of ASCII,
every other character is replaced, and an underscore is put in front of a digit and behind a word
that is kept.

So no file has the name of the one that gathers the modules, and names that differ still do where
capital and small letters are one (`generated_files_apart`).
-/

namespace Backwire.Bindings

open Package Schema
open Wire (bind_eq_ok_iff)

/-! ### Small letters -/

section Letters

variable {c d : Char}

theorem not_isUpper_ofNat {n : Nat} (h : n < 65 ∨ 90 < n) : ¬(Char.ofNat n).isUpper := by
  rw [isUpper_iff, Char.toNat_ofNat]
  split <;> omega

/-- No code point becomes that of a capital letter of ASCII: those beyond ASCII stay behind `Z`,
wherever their stretch is moved to. -/
theorem map_toSmall_lt_or_lt (n : Nat) : Text.toSmall.map n < 65 ∨ 90 < Text.toSmall.map n := by
  by_cases hn : n < 128
  · rw [map_toSmall hn]
    split <;> omega
  · have hbeyond : ∀ e ∈ Text.toSmall, 90 < e.2.1 → 90 < (e.1 : Int) + e.2.2.2 := by decide +kernel
    unfold Text.Shifts.map
    split
    · next hfind =>
      have hentry := hbeyond _ (List.mem_of_find?_eq_some hfind)
      have hin := List.find?_some hfind
      simp only [Bool.and_eq_true, decide_eq_true_eq] at hin
      rw [Int.ofNat_eq_natCast]
      dsimp only at hentry
      omega
    · omega

/-- **No small form has a capital letter of ASCII.** -/
theorem not_isUpper_of_mem_lower (h : d ∈ Text.lower c) : ¬d.isUpper := by
  unfold Text.lower at h
  split at h
  · next cs hlookup =>
    have hlong : ∀ e ∈ Text.longSmall, ∀ n ∈ e.2, n < 65 ∨ 90 < n := by decide
    obtain ⟨n, hn, rfl⟩ := List.mem_map.1 h
    obtain ⟨l₁, l₂, hsplit, -⟩ := List.lookup_eq_some_iff.1 hlookup
    exact not_isUpper_ofNat (hlong _ (hsplit ▸ List.mem_append_right _ List.mem_cons_self) n hn)
  · obtain rfl := List.mem_singleton.1 h
    exact not_isUpper_ofNat (map_toSmall_lt_or_lt _)

/-- A character of ASCII that is no capital letter is its own small form. -/
theorem lower_eq_self (hascii : c.toNat < 128) (h : ¬c.isUpper) : Text.lower c = [c] := by
  rw [isUpper_iff] at h
  rw [Text.lower, lookup_longSmall hascii, map_toSmall hascii, if_neg h, Char.ofNat_toNat]

/-- A capital letter of ASCII is one wherever it stands. -/
theorem isCapital_of_isUpper (h : c.isUpper) : Text.isCapital c := by
  rw [isUpper_iff] at h
  rw [Text.isCapital, has_capitals (by omega), decide_eq_true h]

theorem not_isUpper_of_mem_snakeFrom {previous : Option Char} {cs : List Char}
    (h : d ∈ snakeFrom previous cs) : ¬d.isUpper := by
  induction cs generalizing previous with
  | nil => cases h
  | cons c cs ih =>
    have hboth (hmem : d ∈ Text.lower c ++ snakeFrom (some c) cs) : ¬d.isUpper :=
      (List.mem_append.1 hmem).elim not_isUpper_of_mem_lower ih
    rw [snakeFrom] at h
    split at h
    · split at h
      · rcases List.mem_cons.1 h with rfl | hmem
        · decide
        · exact hboth hmem
      · exact hboth h
    · next hcapital =>
      rcases List.mem_cons.1 h with rfl | hmem
      · exact mt isCapital_of_isUpper hcapital
      · exact ih hmem

end Letters

/-! ### Words -/

/-- **A word that a module can go by**: an identifier in snake case that is not kept for the
language. -/
structure IsModuleWord (w : String) : Prop where
  snake : IsSnake w
  begins : ∃ c cs, w.toList = c :: cs ∧ ¬c.isDigit
  free : ¬isReserved w

/-- A word that is kept for the language is not any more with an underscore behind it. -/
theorem isModuleWord_escaped {w : String} (hsnake : IsSnake w)
    (hbegins : ∃ c cs, w.toList = c :: cs ∧ ¬c.isDigit) :
    IsModuleWord (if isReserved w then w ++ "_" else w) := by
  have hescaped : ∀ r ∈ keywords ++ reservedWords, ¬isReserved (r ++ "_") := by decide +kernel
  split
  · next hreserved =>
    obtain ⟨c, cs, hw, hc⟩ := hbegins
    have hunderscore : IsSnake "_" := List.forall_mem_singleton.2 rfl
    refine ⟨hsnake.append hunderscore, ⟨c, cs ++ ['_'], ?_, hc⟩, ?_⟩
    · rw [String.toList_append, hw]
      rfl
    · refine hescaped w (List.mem_append.2 ?_)
      simpa [isReserved] using hreserved
  · next hfree => exact ⟨hsnake, hbegins, hfree⟩

/-- What is left of a character in the name of a module is in snake case. -/
theorem isSnakeChar_replaced {c : Char} (h : ¬c.isUpper) :
    isSnakeChar (if isModuleCharacter c then c else '_') := by
  split
  · next hchar =>
    simp only [isModuleCharacter, Char.isAlpha, isSnakeChar, Bool.or_eq_true] at hchar ⊢
    tauto
  · rfl

/-- With an underscore in front of nothing and in front of a digit, every word begins with something
else than a digit. -/
theorem exists_begins (cs : List Char) : ∃ c rest,
    (if cs.head?.all Char.isDigit then '_' :: cs else cs) = c :: rest ∧ ¬c.isDigit := by
  split
  · exact ⟨'_', cs, rfl, by decide⟩
  · next hhead =>
    cases cs with
    | nil => exact absurd rfl hhead
    | cons c rest => exact ⟨c, rest, rfl, hhead⟩

/-- **Every file and every segment of an ID has a word for its module.** -/
theorem isModuleWord_moduleName (w : String) : IsModuleWord (moduleName w).name := by
  have hcs : ∀ c ∈ (snakeFrom none w.toList).map fun c => if isModuleCharacter c then c else '_',
      isSnakeChar c :=
    List.forall_mem_map.2 fun c hc => isSnakeChar_replaced (not_isUpper_of_mem_snakeFrom hc)
  refine isModuleWord_escaped (fun c hc => ?_) ?_
  · rw [String.toList_ofList] at hc
    split at hc
    · exact (List.mem_cons.1 hc).elim (fun heq => heq ▸ rfl) (hcs c)
    · exact hcs c hc
  · rw [String.toList_ofList]
    exact exists_begins _

/-! ### Names of files -/

/-- **A name where capital and small letters are one.** -/
def lowered (name : String) : List Char := name.toList.flatMap Text.lower

theorem lowered_eq_toList {name : String} (h : ∀ c ∈ name.toList, c.toNat < 128 ∧ ¬c.isUpper) :
    lowered name = name.toList := by
  have hsame : ∀ c ∈ name.toList, Text.lower c = [c] := fun c hc =>
    lower_eq_self (h c hc).1 (h c hc).2
  rw [lowered, List.flatMap_def, List.map_congr_left hsame, ← List.flatMap_def]
  exact List.flatMap_singleton' _

/-- The name of the file of a module has no capital letter. -/
theorem IsModuleWord.lowered_sourceName {w : String} (h : IsModuleWord w) :
    lowered (w ++ ".rs") = (w ++ ".rs").toList := by
  refine lowered_eq_toList fun c hc => ?_
  rw [String.toList_append, List.mem_append] at hc
  rcases hc with hc | hc
  · have hsnake := isSnakeChar_iff.1 (h.snake c hc)
    rw [isUpper_iff]
    omega
  · have hending : ∀ c ∈ ".rs".toList, c.toNat < 128 ∧ ¬c.isUpper := by simp [isUpper_iff]
    exact hending c hc

theorem lowered_gatheringName : lowered gatheringName = gatheringName.toList :=
  lowered_eq_toList (by simp [gatheringName, isUpper_iff])

/-- No module goes by a word that is kept for the file that gathers them. -/
theorem sourceName_ne_gatheringName (w : String) : sourceName (moduleName w) ≠ gatheringName := by
  intro heq
  have hword : (moduleName w).name = "mod" := (String.append_left_inj ".rs").1 heq
  have hfree := (isModuleWord_moduleName w).free
  rw [hword] at hfree
  exact hfree (by decide)

/-- **The names of files differ if the modules do**: a module is never raw. -/
theorem nodup_names {stems : List String} (h : (stems.map moduleName).Nodup) :
    ((stems.map moduleName).map sourceName ++ [gatheringName]).Nodup := by
  refine List.nodup_append.2 ⟨h.map_on ?_, List.nodup_singleton _, ?_⟩
  · simp only [List.forall_mem_map]
    intro v _ w _ heq
    exact congrArg Identifier.plain ((String.append_left_inj _).1 heq)
  · simp only [List.forall_mem_map, List.forall_mem_singleton]
    exact fun w _ => sourceName_ne_gatheringName w

/-- So they do where capital and small letters are one, since they have no capital letters. -/
theorem nodup_lowered {stems : List String} (h : (stems.map moduleName).Nodup) :
    (((stems.map moduleName).map sourceName ++ [gatheringName]).map lowered).Nodup := by
  have hlowered : ∀ name ∈ (stems.map moduleName).map sourceName ++ [gatheringName],
      lowered name = name.toList := by
    rw [List.forall_mem_append, List.forall_mem_singleton]
    refine ⟨?_, lowered_gatheringName⟩
    simp only [List.forall_mem_map]
    exact fun w _ => (isModuleWord_moduleName w).lowered_sourceName
  rw [List.map_congr_left hlowered]
  exact (nodup_names h).map fun _ _ => String.toList_inj.1

/-! ### The files of a package -/

section Files

variable {read : PathReader} {settings : Settings} {s : Session} {number : Nat} {p : Compiled}

theorem Scope.name_of_sourceFile {sc : Scope} {name : String} {module : Identifier}
    {file : SourceFile} (h : sc.sourceFile settings p name module = .ok file) :
    file.name = sourceName module := by
  unfold sourceFile at h
  dsimp only at h
  split at h
  · cases h
  · split at h
    · cases h
    · cases h
      rfl

/-- **The files of bindings are called after the modules of the schema files**, which differ. -/
theorem names_of_generate {files : List SourceFile}
    (h : generate read settings s number p = .ok files) :
    files.map SourceFile.name =
        ((p.files.map Package.File.stem).map moduleName).map sourceName ++ [gatheringName] ∧
      ((p.files.map Package.File.stem).map moduleName).Nodup := by
  obtain ⟨runtime, -, h⟩ := bind_eq_ok_iff.1 h
  obtain ⟨paths, -, h⟩ := bind_eq_ok_iff.1 h
  obtain ⟨made, hmade, h⟩ := bind_eq_ok_iff.1 h
  cases h
  obtain ⟨hall, hnodup, -⟩ := sourceFiles_ok hmade
  have hmodules : made.map Prod.fst = (p.files.map Package.File.stem).map moduleName := by
    have hpairs := map_eq_map_of_forall₂ (hall.flip.imp fun _ _ hx => hx.1)
    rw [hpairs, List.map_map, ← List.zipIdx_map_fst 0 p.files, List.map_map, List.zipIdx_map_fst]
    rfl
  have hnames : made.map (fun m => m.2.name) = (made.map Prod.fst).map sourceName := by
    rw [List.map_map]
    refine List.map_congr_left fun m hm => ?_
    obtain ⟨x, -, -, hfile⟩ := exists_of_forall₂ hall hm
    exact Scope.name_of_sourceFile hfile
  refine ⟨?_, hmodules ▸ hnodup⟩
  rw [← hmodules, ← hnames, List.map_append, List.map_map]
  rfl

/-- **Bindings are written to files of their own.** If two schema files of a package have one
module, no bindings are generated for it. And if some are, there is one file for each schema file
and the one that gathers them. Their names differ, even where capital and small letters are one, and
each but the last is a word for a module with the ending of its language. -/
theorem generated_files_apart (read : PathReader) (settings : Settings) (s : Session) (number : Nat)
    (p : Compiled) :
    (∀ (i j : Nat) (f g : Package.File Nat), i < j → p.files[i]? = some f → p.files[j]? = some g →
      moduleName f.stem = moduleName g.stem → ∃ e, generate read settings s number p = .error e) ∧
    ∀ files, generate read settings s number p = .ok files →
      files.map SourceFile.name =
          (p.files.map fun f => (moduleName f.stem).name ++ ".rs") ++ ["mod.rs"] ∧
        (∀ f ∈ p.files, IsModuleWord (moduleName f.stem).name) ∧
        (files.map fun f => lowered f.name).Nodup := by
  constructor
  · intro i j f g hij hf hg hmodule
    cases hgenerate : generate read settings s number p with
    | error e => exact ⟨e, rfl⟩
    | ok files =>
      have hdiffer := List.pairwise_map.1 (List.pairwise_map.1 (names_of_generate hgenerate).2)
      obtain ⟨hi, rfl⟩ := List.getElem?_eq_some_iff.1 hf
      obtain ⟨hj, rfl⟩ := List.getElem?_eq_some_iff.1 hg
      exact absurd hmodule (List.pairwise_iff_getElem.1 hdiffer i j hi hj hij)
  · intro files hgenerate
    obtain ⟨hnames, hnodup⟩ := names_of_generate hgenerate
    refine ⟨?_, fun f _ => isModuleWord_moduleName f.stem, ?_⟩
    · rw [hnames, List.map_map, List.map_map]
      rfl
    · have hdiffer := nodup_lowered hnodup
      rwa [← hnames, List.map_map] at hdiffer

end Files

/-! ### A sample -/

/-- A package with files of these names, in which nothing is declared. -/
def packageOfFiles (names : List String) : Compiled :=
  ⟨"c", .ofNames ["w", "c"], names.map fun name => ⟨name, .ofNames ["w", "c", name], [], []⟩, []⟩

/-- The session in which such a package has been compiled. -/
def sessionOfFiles (names : List String) : Session :=
  ⟨[.finished (packageOfFiles names)], [("c", 0)]⟩

/-- Two files of one module have no bindings; two files whose names are kept for the language, or
have other letters, have them in files of their own. -/
theorem generated_files_apart_mixed :
    (∃ e, generate ModulePath.ofText ⟨defaultRuntime, true⟩
      (sessionOfFiles ["a-b.spec", "a_b.spec"]) 0
      (packageOfFiles ["a-b.spec", "a_b.spec"]) = .error e) ∧
    ∃ files, generate ModulePath.ofText ⟨defaultRuntime, true⟩
        (sessionOfFiles ["3Größe.spec", "Mod.spec"]) 0
        (packageOfFiles ["3Größe.spec", "Mod.spec"]) = .ok files ∧
      files.map SourceFile.name = ["_3_gr__e.rs", "mod_.rs", "mod.rs"] ∧
      (files.map fun f => lowered f.name).Nodup := by
  constructor
  · have hmodule : moduleName "a-b" = moduleName "a_b" := by decide +kernel
    exact (generated_files_apart _ _ _ _ _).1 0 1 _ _ Nat.zero_lt_one rfl rfl hmodule
  · have hok : (generate ModulePath.ofText ⟨defaultRuntime, true⟩
        (sessionOfFiles ["3Größe.spec", "Mod.spec"]) 0
        (packageOfFiles ["3Größe.spec", "Mod.spec"])).isOk := by decide +kernel
    obtain ⟨files, hfiles⟩ := exists_of_isOk hok
    obtain ⟨hnames, -, hnodup⟩ := (generated_files_apart _ _ _ _ _).2 files hfiles
    exact ⟨files, hfiles, hnames.trans (by decide +kernel), hnodup⟩

end Backwire.Bindings
