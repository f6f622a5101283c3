import Backwire.Package.Compile
import Backwire.Proofs.Wire.Ending

/-!
# What a draft is made of

The draft of a package has the ID and the directory it is asked for under. Its files are schema
files of that directory, in the order of their names; the links of each stand in the order of the
imports in its text. So every link of a draft is among `importIds`, which bounds how far imports can
be followed.
-/

namespace Backwire.Package

open Schema
open Wire (bind_eq_ok_iff pure_eq_ok_iff ite_eq_ok_iff)

variable {α β ε : Type} {κ τ : Type}

/-! ### Calculations over lists -/

/-- A list is gone through when each of its members gives a result. -/
theorem mapM_eq_ok_iff {f : α → Except ε β} {as : List α} {bs : List β} :
    as.mapM f = .ok bs ↔ List.Forall₂ (fun a b => f a = .ok b) as bs := by
  induction as generalizing bs with
  | nil =>
    rw [List.mapM_nil, List.forall₂_nil_left_iff, pure_eq_ok_iff]
    exact eq_comm
  | cons a as ih =>
    simp only [List.mapM_cons, bind_eq_ok_iff, pure_eq_ok_iff, ih, List.forall₂_cons_left_iff]
    constructor
    · rintro ⟨b, hb, bs, hbs, rfl⟩
      exact ⟨b, bs, hb, hbs, rfl⟩
    · rintro ⟨b, bs, hb, hbs, rfl⟩
      exact ⟨b, hb, bs, hbs, rfl⟩

/-- What is true of a member of the second list is true because of one of the first. -/
theorem exists_of_forall₂ {R : α → β → Prop} {as : List α} {bs : List β} {b : β}
    (h : List.Forall₂ R as bs) (hb : b ∈ bs) : ∃ a ∈ as, R a b := by
  induction h with
  | nil => cases hb
  | cons hab _ ih =>
    rcases List.mem_cons.1 hb with rfl | hb
    · exact ⟨_, List.mem_cons_self, hab⟩
    · obtain ⟨a, ha, hab⟩ := ih hb
      exact ⟨a, List.mem_cons_of_mem _ ha, hab⟩

/-- Lists whose members agree in pairs are one list, as far as they agree. -/
theorem map_eq_map_of_forall₂ {γ : Type} {f : α → γ} {g : β → γ} {as : List α} {bs : List β}
    (h : List.Forall₂ (fun a b => f a = g b) as bs) : as.map f = bs.map g := by
  induction h with
  | nil => rfl
  | cons hab _ ih => rw [List.map_cons, List.map_cons, hab, ih]

theorem mapError_eq_ok_iff {ε' : Type} {x : Except ε α} {f : ε → ε'} {a : α} :
    x.mapError f = .ok a ↔ x = .ok a := by
  cases x <;> simp [Except.mapError]

theorem nodup_eraseDups [BEq α] [LawfulBEq α] (l : List α) : l.eraseDups.Nodup := by
  match l with
  | [] => exact List.nodup_nil
  | a :: l =>
    rw [List.eraseDups_cons, List.nodup_cons, List.mem_eraseDups]
    refine ⟨fun h => ?_, nodup_eraseDups _⟩
    simpa using (List.mem_filter.1 h).2
  termination_by l.length
  decreasing_by exact Nat.lt_succ_of_le (List.length_filter_le _ _)

/-- Names that differ are sorted strictly. -/
theorem pairwise_lt_sorted {names : List String} (h : names.Nodup) :
    (names.mergeSort fun a b => !decide (b < a)).Pairwise (· < ·) := by
  have hle (a b : String) : (!decide (b < a)) = true ↔ a ≤ b := by
    rw [Bool.not_eq_true', decide_eq_false_iff_not, String.not_lt]
  have hsorted := @List.pairwise_mergeSort _ (fun a b : String => !decide (b < a))
    (fun a b c hab hbc => (hle a c).2 (String.le_trans ((hle a b).1 hab) ((hle b c).1 hbc)))
    (fun a b => by
      rw [Bool.or_eq_true, hle, hle]
      exact String.le_total a b)
    names
  exact hsorted.imp₂ (fun a b hab hne => lt_of_le_of_ne ((hle a b).1 hab) hne) h.mergeSort

/-! ### The files of a directory -/

/-- A file stands at a path under which it is listed. -/
theorem FileTree.exists_entry_of_isFile {t : FileTree} {p : Path} (h : t.isFile p) :
    ∃ node, (p, node) ∈ t.entries := by
  unfold isFile at h
  split at h
  · next content hnode =>
    unfold node? at hnode
    split at hnode
    · cases hnode
    · obtain ⟨before, after, hentries, -⟩ := List.lookup_eq_some_iff.1 hnode
      exact ⟨_, hentries ▸ List.mem_append_right _ List.mem_cons_self⟩
  · cases h

theorem FileTree.nodup_of_readDirectory {t : FileTree} {start p : Path} {names : List String}
    (h : t.readDirectory start p = .ok names) : names.Nodup := by
  obtain ⟨q, -, h⟩ := bind_eq_ok_iff.1 h
  obtain ⟨rfl, -⟩ := ite_eq_ok_iff.1 h
  exact nodup_eraseDups _

/-- **The schema files of a directory** are read in the order of their names. -/
theorem readSources_ok {t : FileTree} {directory : Path} {sources : List Source}
    (h : readSources t directory = .ok sources) :
    (sources.map Source.name).Pairwise (· < ·) ∧
      ∀ source ∈ sources, source.path = directory.child source.name ∧ t.isFile source.path ∧
        t.readText .root source.path = .ok source.text := by
  obtain ⟨names, hnames, h⟩ := bind_eq_ok_iff.1 h
  rw [mapError_eq_ok_iff] at hnames
  have hall := mapM_eq_ok_iff.1 h
  have hsource : List.Forall₂ (fun n source => source.name = n ∧
      source.path = directory.child n ∧ t.readText .root source.path = .ok source.text) _ sources :=
    hall.imp fun n source hn => by
      obtain ⟨text, htext, hn⟩ := bind_eq_ok_iff.1 hn
      rw [mapError_eq_ok_iff] at htext
      cases hn
      exact ⟨rfl, rfl, htext⟩
  have hmap : sources.map Source.name =
      (names.filter fun n => isSchemaName n && t.isFile (directory.child n)).mergeSort
        fun a b => !decide (b < a) :=
    (map_eq_map_of_forall₂ (hsource.flip.imp fun _ _ h => h.1)).trans (List.map_id _)
  refine ⟨?_, fun source hmem => ?_⟩
  · rw [hmap]
    exact pairwise_lt_sorted ((FileTree.nodup_of_readDirectory hnames).filter _)
  · obtain ⟨n, hn, rfl, hpath, htext⟩ := exists_of_forall₂ hsource hmem
    have hfile := (List.mem_filter.1 ((List.mergeSort_perm _ _).mem_iff.1 hn)).2
    rw [Bool.and_eq_true, ← hpath] at hfile
    exact ⟨hpath, hfile.2, htext⟩

/-! ### Parsing -/

/-- **The files of a directory have been read and parsed**, and there is one. -/
structure ParsedFiles (t : FileTree) (directory : Path) (parsed : List (Source × SchemaFile)) :
    Prop where
  read : readSources t directory = .ok (parsed.map Prod.fst)
  parse : ∀ x ∈ parsed, parse x.1.text = .ok x.2
  nonempty : parsed ≠ []

/-- The draft of a package whose files can be parsed. -/
theorem ParsedFiles.draft_eq {t : FileTree} {directory : Path}
    {parsed : List (Source × SchemaFile)} (h : ParsedFiles t directory parsed) (id : String) :
    draft t directory id = (do
      let (files, definitions) ← draftFiles id 0 [] parsed
      return ⟨id, directory, files, definitions⟩) := by
  have hparsed : ((parsed.map Prod.fst).mapM fun s : Source => do
      return (s, ← (Schema.parse s.text).mapError (CompileError.malformed s.path))) =
        .ok parsed := by
    refine mapM_eq_ok_iff.2 (List.forall₂_map_left_iff.2 (List.forall₂_same.2 fun x hx => ?_))
    exact bind_eq_ok_iff.2 ⟨x.2, mapError_eq_ok_iff.2 (h.parse x hx), rfl⟩
  have hne : (parsed.map Prod.fst).isEmpty = false := by
    rw [List.isEmpty_eq_false_iff]
    simpa using h.nonempty
  unfold draft
  rw [h.read]
  show (if (parsed.map Prod.fst).isEmpty then _ else _) = _
  rw [hne]
  show ((parsed.map Prod.fst).mapM _ >>= _) = _
  rw [hparsed]
  rfl

theorem ParsedFiles.draft_eq_ok_iff {t : FileTree} {directory : Path}
    {parsed : List (Source × SchemaFile)} (h : ParsedFiles t directory parsed) {id : String}
    {d : Draft} : draft t directory id = .ok d ↔
      d.id = id ∧ d.directory = directory ∧
        draftFiles id 0 [] parsed = .ok (d.files, d.definitions) := by
  rw [h.draft_eq]
  constructor
  · intro hd
    obtain ⟨⟨files, definitions⟩, hfiles, hd⟩ := bind_eq_ok_iff.1 hd
    cases hd
    exact ⟨rfl, rfl, hfiles⟩
  · rintro ⟨rfl, rfl, hfiles⟩
    exact bind_eq_ok_iff.2 ⟨_, hfiles, rfl⟩

/-- A draft is made of files that have been parsed. -/
theorem exists_parsedFiles {t : FileTree} {directory : Path} {id : String} {d : Draft}
    (h : draft t directory id = .ok d) :
    ∃ parsed, ParsedFiles t directory parsed ∧ d.id = id ∧ d.directory = directory ∧
      draftFiles id 0 [] parsed = .ok (d.files, d.definitions) := by
  obtain ⟨sources, hsources, h⟩ := bind_eq_ok_iff.1 h
  dsimp only at h
  split at h
  · cases h
  next hne =>
  obtain ⟨parsed, hparsed, h⟩ := bind_eq_ok_iff.1 h
  obtain ⟨⟨files, definitions⟩, hfiles, h⟩ := bind_eq_ok_iff.1 h
  cases h
  have hall : List.Forall₂ (fun source x => x.1 = source ∧ parse source.text = .ok x.2)
      sources parsed :=
    (mapM_eq_ok_iff.1 hparsed).imp fun source x hx => by
      obtain ⟨schema, hschema, hx⟩ := bind_eq_ok_iff.1 hx
      cases hx
      exact ⟨rfl, mapError_eq_ok_iff.1 hschema⟩
  have hfirst : parsed.map Prod.fst = sources :=
    (map_eq_map_of_forall₂ (hall.flip.imp fun _ _ h => h.1)).trans (List.map_id _)
  refine ⟨parsed, ⟨hfirst ▸ hsources, fun x hx => ?_, ?_⟩, rfl, rfl, hfiles⟩
  · obtain ⟨source, -, rfl, hschema⟩ := exists_of_forall₂ hall hx
    exact hschema
  · rintro rfl
    rw [← hfirst] at hne
    exact hne rfl

/-! ### Drafts -/

/-- What a file of a draft takes from its source and from the schema in it. -/
def DraftedFrom (x : Source × SchemaFile) (f : File Unit) : Prop :=
  f.name = x.1.name ∧ f.path = x.1.path ∧ f.imports = x.2.imports.map draftLink

theorem draftFile_ok {location : Location} {source : Source} {schema : SchemaFile} {f : File Unit}
    (h : draftFile location source schema = .ok f) : DraftedFrom (source, schema) f := by
  obtain ⟨_, -, h⟩ := bind_eq_ok_iff.1 h
  obtain ⟨_, -, h⟩ := bind_eq_ok_iff.1 h
  cases h
  exact ⟨rfl, rfl, rfl⟩

theorem draftFiles_ok {package : String} {parsed : List (Source × SchemaFile)} {file : Nat}
    {taken : List String} {files : List (File Unit)} {definitions : List (Declared TypeName)}
    (h : draftFiles package file taken parsed = .ok (files, definitions)) :
    List.Forall₂ DraftedFrom parsed files := by
  induction parsed generalizing file taken files definitions with
  | nil =>
    cases h
    exact .nil
  | cons x parsed ih =>
    rw [draftFiles] at h
    obtain ⟨f, hf, h⟩ := bind_eq_ok_iff.1 h
    obtain ⟨ds, -, h⟩ := bind_eq_ok_iff.1 h
    obtain ⟨⟨fs, es⟩, hfs, h⟩ := bind_eq_ok_iff.1 h
    cases h
    exact .cons (draftFile_ok hf) (ih hfs)

/-- **The files of a package are in order**: by name, and in each the imports as in its text. -/
structure PackageOf.InOrder (t : FileTree) (p : PackageOf κ τ) : Prop where
  names : (p.files.map File.name).Pairwise (· < ·)
  imports : ∀ f ∈ p.files, f.path = p.directory.child f.name ∧ t.isFile f.path ∧
    ∃ text schema, t.readText .root f.path = .ok text ∧ parse text = .ok schema ∧
      f.imports.map Link.id = schema.imports.map fun i => importId i.path

/-- A draft takes its ID and its directory from what it is asked for and its files from there. -/
theorem draft_ok {t : FileTree} {directory : Path} {id : String} {d : Draft}
    (h : draft t directory id = .ok d) : d.id = id ∧ d.directory = directory ∧ d.InOrder t := by
  obtain ⟨parsed, hparsed, rfl, rfl, hfiles⟩ := exists_parsedFiles h
  obtain ⟨hnames, hread⟩ := readSources_ok hparsed.read
  have hfiles := draftFiles_ok hfiles
  refine ⟨rfl, rfl, ?_, fun f hf => ?_⟩
  · rw [map_eq_map_of_forall₂ (hfiles.flip.imp fun _ _ h => h.1)]
    rwa [List.map_map] at hnames
  · obtain ⟨⟨source, schema⟩, hx, hname, hpath, himports⟩ := exists_of_forall₂ hfiles hf
    obtain ⟨hchild, hfile, htext⟩ := hread source (List.mem_map_of_mem hx)
    rw [hpath, hname]
    have hparse := hparsed.parse _ hx
    refine ⟨hchild, hfile, source.text, schema, htext, hparse, ?_⟩
    rw [himports, List.map_map]
    rfl

/-- A directory with one schema file. -/
theorem parsedFiles_of_single {t : FileTree} {directory : Path} (source : Source)
    {schema : SchemaFile} (hnames : t.readDirectory .root directory = .ok [source.name])
    (hpath : source.path = directory.child source.name)
    (hname : (isSchemaName source.name && t.isFile source.path) = true)
    (htext : t.readText .root source.path = .ok source.text)
    (hschema : parse source.text = .ok schema) : ParsedFiles t directory [(source, schema)] := by
  have hsources : readSources t directory = .ok [source] := by
    have hwanted : [source.name].filter (fun n => isSchemaName n && t.isFile (directory.child n)) =
        [source.name] :=
      List.filter_eq_self.2 fun n hn => by rwa [List.mem_singleton.1 hn, ← hpath]
    refine bind_eq_ok_iff.2 ⟨[source.name], mapError_eq_ok_iff.2 hnames, ?_⟩
    dsimp only
    rw [hwanted, List.mergeSort_singleton]
    refine mapM_eq_ok_iff.2 (.cons (bind_eq_ok_iff.2 ⟨source.text, ?_, ?_⟩) .nil)
    · rw [← hpath, mapError_eq_ok_iff]
      exact htext
    · rw [← hpath]
      rfl
  refine ⟨hsources, fun x hx => ?_, nofun⟩
  rw [List.mem_singleton.1 hx]
  exact hschema

/-- The draft of a directory with one schema file. -/
theorem draft_of_single {t : FileTree} {directory : Path} {id : String} (source : Source)
    {schema : SchemaFile} {files : List (File Unit)} {definitions : List (Declared TypeName)}
    (hnames : t.readDirectory .root directory = .ok [source.name])
    (hpath : source.path = directory.child source.name)
    (hname : (isSchemaName source.name && t.isFile source.path) = true)
    (htext : t.readText .root source.path = .ok source.text)
    (hschema : parse source.text = .ok schema)
    (hfiles : draftFiles id 0 [] [(source, schema)] = .ok (files, definitions)) :
    draft t directory id = .ok ⟨id, directory, files, definitions⟩ :=
  (parsedFiles_of_single source hnames hpath hname htext hschema).draft_eq_ok_iff.2
    ⟨rfl, rfl, hfiles⟩

/-- **Every link of a draft is among the IDs that the files of the tree import.** -/
theorem PackageOf.InOrder.mem_importIds {t : FileTree} {p : PackageOf κ τ} (h : p.InOrder t)
    {f : File κ} (hf : f ∈ p.files) {l : Link κ} (hl : l ∈ f.imports) : l.id ∈ importIds t := by
  obtain ⟨-, hfile, text, schema, htext, hschema, hids⟩ := h.imports f hf
  obtain ⟨node, hentry⟩ := FileTree.exists_entry_of_isFile hfile
  refine List.mem_flatMap.2 ⟨(f.path, node), hentry, ?_⟩
  simp only [htext, hschema]
  rw [← hids]
  exact List.mem_map_of_mem hl

end Backwire.Package
