import RuleTable.Proofs.Batch.Tables
import RuleTable.Proofs.Conversion.Ids
import RuleTable.Proofs.Files.Children

/-!
# How the conversion of a file ends

The documents of a file are written only when the whole text was converted, one after the other.
So a file that is not converted leaves everything as it was, and so does one whose first document
goes nowhere; but when a later document goes nowhere the file **fails with documents written**:
those before it stay, though no result lists them.
-/

set_option autoImplicit false

namespace RuleTable

open Text FileTree

/-! ## Names of documents -/

namespace Path

variable {path stem name : Text} {count : Nat}

/-- The stem of a name has no other characters than the name. -/
theorem splitName_subset (name : Text) : (splitName name).1 ⊆ name := by
  intro c hc
  unfold splitName at hc
  split at hc
  · next first second stem hcut =>
      have hsuffix : second :: stem <:+ name.reverse :=
        (List.suffix_cons first _).trans (hcut ▸ List.dropWhile_suffix _)
      exact List.mem_reverse.mp (hsuffix.subset (List.mem_reverse.mp hc))
  · exact hc

/-- **No stem holds a slash.** -/
theorem slash_notMem_fileStem (path : Text) : '/' ∉ (fileStem? path).getD [] := by
  unfold fileStem? fileName?
  split
  · next name hlast =>
      have hmove : .down name ∈ dropSlash (steps path) := by
        have hmem := List.mem_of_getLast? hlast
        rw [moves_eq] at hmem
        exact List.mem_of_mem_filter hmem
      rw [dropSlash_steps] at hmove
      obtain ⟨piece, hpiece, hstep⟩ := List.mem_filterMap.mp hmove
      obtain rfl := eq_of_stepOf? hstep
      exact fun hslash => not_mem_of_mem_splitOn hpiece (splitName_subset piece hslash)
  · exact List.not_mem_nil

/-- What ends in the extension of documents goes down, unless a slash is in it. -/
theorem isName_document (h : '/' ∉ name) : IsName (name ++ ".dmn".toList) := by
  refine ⟨?_, ?_⟩
  · simp [h]
  · have hlength : 4 ≤ (name ++ ".dmn".toList).length := by simp
    unfold stepOf?
    split_ifs with hnil hstay hup
    · rw [hnil] at hlength
      cases hlength
    · rw [hstay] at hlength
      exact absurd hlength (by decide)
    · rw [hup] at hlength
      exact absurd hlength (by decide)
    · rfl

/-- **The names of documents are names**, if the stem is one. -/
theorem isName_of_mem_documentNames (h : '/' ∉ stem) (hname : name ∈ documentNames stem count) :
    IsName name := by
  rw [documentNames] at hname
  split at hname
  · rw [List.mem_singleton.mp hname]
    exact isName_document h
  · obtain ⟨n, -, rfl⟩ := List.mem_map.mp hname
    refine isName_document ?_
    have hnumber : '/' ∉ ofNat n := fun hslash =>
      absurd (Nat.isDigit_of_mem_toDigits (by decide) (by decide) hslash) (by decide)
    simp [h, hnumber]

end Path

namespace Job

variable (settings : BatchSettings) (tree : FileTree) (job : Job)

/-- **The documents of a file lie directly in the output directory**, each under a name. -/
theorem exists_name_of_mem_documentPaths {path : Text} {count : Nat}
    (h : path ∈ job.documentPaths settings count) :
    ∃ name, Path.IsName name ∧ path = Path.child settings.outputDirectory name := by
  obtain ⟨name, hname, rfl⟩ := List.mem_map.mp h
  exact ⟨name, Path.isName_of_mem_documentNames (Path.slash_notMem_fileStem job.path) hname, rfl⟩

/-! ## Outcomes -/

/-- **The documents that a file is converted to**, with their paths; none if it is not. -/
def converted : List (Text × Text) :=
  match job.convert settings tree with
  | .ok (_, documents) => documents
  | .error _ => []

variable {settings tree job} {output : FileOutput} {documents : List (Text × Text)}

/-- **A text that is converted** gives the documents that are to be written. -/
theorem convert_of_ofText {text : Text} {conversion : Conversion}
    (hread : tree.readText job.path = .ok text)
    (htext : (Conversion.ofText job.suffix (.ofStem ((Path.fileStem? job.path).getD []))
      settings.conversion text).2 = .ok conversion) :
    job.convert settings tree
      = .ok (⟨conversion.rules, conversion.skipped.length,
          job.documentPaths settings conversion.documents.length⟩,
        (job.documentPaths settings conversion.documents.length).zip conversion.documents) := by
  rw [convert, hread]
  dsimp only
  rw [htext]

/-- **A file is converted only if its text is**, and has a path for each document. -/
theorem exists_of_convert (h : job.convert settings tree = .ok (output, documents)) :
    ∃ text conversion, tree.readText job.path = .ok text ∧
      (Conversion.ofText job.suffix (.ofStem ((Path.fileStem? job.path).getD []))
        settings.conversion text).2 = .ok conversion ∧
      output = ⟨conversion.rules, conversion.skipped.length,
        job.documentPaths settings conversion.documents.length⟩ ∧
      documents = output.documents.zip conversion.documents ∧
      output.documents.length = conversion.documents.length := by
  cases hread : tree.readText job.path with
  | error error => cases (convert_of_error settings hread).symm.trans h
  | ok text =>
      cases htext : (Conversion.ofText job.suffix (.ofStem ((Path.fileStem? job.path).getD []))
          settings.conversion text).2 with
      | error error =>
          rw [convert, hread] at h
          dsimp only at h
          rw [htext] at h
          cases h
      | ok conversion =>
          cases (convert_of_ofText hread htext).symm.trans h
          refine ⟨text, conversion, rfl, htext, rfl, rfl, ?_⟩
          rw [documentPaths, List.length_map, length_documentNames]
          exact List.length_pos_iff.mpr (Conversion.documents_ne_nil htext)

/-- A file that is converted has a first document, and it has a name in the output directory. -/
theorem exists_first_of_convert (h : job.convert settings tree = .ok (output, documents)) :
    ∃ name document later, Path.IsName name ∧
      documents = (Path.child settings.outputDirectory name, document) :: later := by
  obtain ⟨hpaths, hfirsts, -⟩ := convert_spec h
  have hne : documents ≠ [] := by
    rintro rfl
    rw [← hfirsts] at hpaths
    cases hpaths
  obtain ⟨⟨path, document⟩, later, rfl⟩ := List.exists_cons_of_ne_nil hne
  have hmem : path ∈ job.documentPaths settings output.documents.length := by
    rw [← hpaths, ← hfirsts]
    exact List.mem_cons_self
  obtain ⟨name, hname, rfl⟩ := job.exists_name_of_mem_documentPaths settings hmem
  exact ⟨name, document, later, hname, rfl⟩

/-- **The documents of a file are written until one goes nowhere.** -/
theorem writeDocuments_of_convert (h : job.convert settings tree = .ok (output, documents)) :
    tree.HasWritten (tree.landed documents) (writeDocuments tree documents).1 ∧
      ((writeDocuments tree documents).2 = .ok () ↔ tree.AllLand documents) := by
  by_cases hroot : tree.kind = .directory
  · exact writeDocuments_spec hroot documents
  -- Without a directory at the top, the first document goes nowhere already.
  · obtain ⟨name, document, later, hname, rfl⟩ := exists_first_of_convert h
    obtain ⟨error, herror⟩ :=
      exists_error_of_lead_child hroot hname true settings.outputDirectory
    have hnone : tree.landing? (Path.child settings.outputDirectory name) = none := by
      rw [landing?, herror]
      rfl
    have hwrite : writeDocuments tree
        ((Path.child settings.outputDirectory name, document) :: later) = (tree, .error error) := by
      rw [writeDocuments, writeFile_eq, herror]
      rfl
    rw [hwrite, landed, List.takeWhile_cons, hnone]
    refine ⟨fun _ => rfl, iff_of_false (fun hok => ?_) (fun hall => ?_)⟩
    · cases hok
    · obtain ⟨place, hplace⟩ := hall _ List.mem_cons_self
      cases hnone.symm.trans hplace

/-- **What a file that is converted comes to**: its documents are written until one goes nowhere,
and it has an output exactly if none does. -/
theorem alone_of_convert (h : job.convert settings tree = .ok (output, documents)) :
    tree.HasWritten (tree.landed documents) (job.alone settings tree).tree ∧
      (tree.AllLand documents ∧ (job.alone settings tree).value.outcome = .ok output ∨
        ¬ tree.AllLand documents ∧
          ∃ error, (job.alone settings tree).value.outcome = .error (.file error)) := by
  obtain ⟨hwritten, hall⟩ := writeDocuments_of_convert h
  have halone := job.alone_eq settings tree
  rw [h] at halone
  dsimp only [writeRest] at halone
  rcases hwrite : writeDocuments tree documents with ⟨written, error | _⟩
  · rw [hwrite] at halone hwritten hall
    obtain ⟨htree, houtcome⟩ := Prod.mk.inj halone
    refine ⟨htree ▸ hwritten, Or.inr ⟨fun hland => ?_, error, houtcome⟩⟩
    cases hall.mpr hland
  · rw [hwrite] at halone hwritten hall
    obtain ⟨htree, houtcome⟩ := Prod.mk.inj halone
    exact ⟨htree ▸ hwritten, Or.inl ⟨hall.mp rfl, houtcome⟩⟩

/-- A file that is not converted changes nothing. -/
theorem alone_of_convert_error {error : ConversionError}
    (h : job.convert settings tree = .error error) :
    (job.alone settings tree).tree = tree ∧
      (job.alone settings tree).value.outcome = .error error := by
  have halone := job.alone_eq settings tree
  rw [h] at halone
  exact Prod.mk.inj halone

/-! ## Failures -/

variable (settings tree job)

/-- **All or nothing**: a file that fails leaves everything as it was. -/
def AllOrNothing : Prop :=
  ∀ error, (job.alone settings tree).value.outcome = .error error →
    ∀ location, (job.alone settings tree).tree.kindAt location = tree.kindAt location

/-- **What a failure leaves behind.** A file fails if it is not converted or if a document goes
nowhere; then the documents before the first such are written, and nothing else is changed. So it
is all or nothing only if every document goes somewhere or those that are written were there
before. -/
theorem allOrNothing_iff :
    ((∃ error, (job.alone settings tree).value.outcome = .error error) ↔
      (∃ error, job.convert settings tree = .error error) ∨
        ¬ tree.AllLand (job.converted settings tree)) ∧
    tree.HasWritten (tree.landed (job.converted settings tree)) (job.alone settings tree).tree ∧
    (job.AllOrNothing settings tree ↔ tree.AllLand (job.converted settings tree) ∨
      ∀ place document,
        tree.lastAt? (tree.landed (job.converted settings tree)) place = some document →
          tree.kindAt place = some (.file (.text document))) := by
  cases hconvert : job.convert settings tree with
  | error error =>
      obtain ⟨htree, houtcome⟩ := alone_of_convert_error hconvert
      have hnone : job.converted settings tree = [] := by rw [converted, hconvert]
      have hall : tree.AllLand (job.converted settings tree) := hnone ▸ List.forall_mem_nil _
      rw [AllOrNothing, htree, houtcome, hnone]
      refine ⟨iff_of_true ⟨error, rfl⟩ (Or.inl ⟨error, rfl⟩), fun _ => rfl, ?_⟩
      exact iff_of_true (fun _ _ _ => rfl) (Or.inl (hnone ▸ hall))
  | ok result =>
      obtain ⟨output, documents⟩ := result
      have hsome : job.converted settings tree = documents := by rw [converted, hconvert]
      obtain ⟨hwritten, ⟨hall, houtcome⟩ | ⟨hall, error, houtcome⟩⟩ := alone_of_convert hconvert
      · rw [AllOrNothing, hsome, ← hwritten.unchanged_iff, houtcome]
        exact ⟨by simp [hall], hwritten, by simp [hall]⟩
      · rw [AllOrNothing, hsome, ← hwritten.unchanged_iff, houtcome]
        exact ⟨by simp [hall], hwritten, by simp [hall]⟩

end Job

/-! ## A file in two parts -/

open Conversion

/-- Settings for tables of one rule. -/
def onePerTable : BatchSettings := { conversion := { maxRules := 1 } }

/-- A file of two rules. -/
def dividedFile : Job := ⟨"in/a.txt".toList, countedSuffix⟩

/-- The paths of its documents. -/
def dividedPaths : List Text := ["output/a_part1.dmn".toList, "output/a_part2.dmn".toList]

/-- The table of its first rule. -/
def firstTable : DecisionTable :=
  ⟨.ofStem "a".toList, [defaultRule 0 "1".toList "Otherwise, a is 1.".toList]⟩

/-- The table of its second rule. -/
def secondTable : DecisionTable :=
  ⟨.ofStem "a".toList, [defaultRule 1 "2".toList "Otherwise, a is 2.".toList]⟩

/-- Its documents, with their paths. -/
def dividedDocuments : List (Text × Text) :=
  dividedPaths.zip [firstTable.document, secondTable.document]

/-- The file, with the entries of the output directory. -/
def dividedIn (entries : List FileTree) : FileTree :=
  .directory [] [.directory "in".toList [.file "a.txt".toList (.text twoDefaults)],
    .directory "output".toList entries]

/-- A part for each rule. -/
theorem tables_dividedFile :
    tables (.ofStem "a".toList) 1 (RuleText.read countedSuffix twoDefaults).rules
      = [firstTable, secondTable] := by
  rw [rules_twoDefaults, tables, chunks_of_not_fits (by decide), chunks_of_fits (by decide)]
  rfl

/-- **The file is converted** to two documents. -/
theorem convert_dividedFile {tree : FileTree}
    (hread : tree.readText dividedFile.path = .ok twoDefaults) :
    ∃ skipped, dividedFile.convert onePerTable tree
      = .ok (⟨2, skipped, dividedPaths⟩, dividedDocuments) := by
  have hne : (RuleText.read countedSuffix twoDefaults).rules ≠ [] := by
    rw [rules_twoDefaults]
    exact List.cons_ne_nil _ _
  have hstem : (Path.fileStem? dividedFile.path).getD [] = "a".toList := by decide
  have hpaths : dividedFile.documentPaths onePerTable 2 = dividedPaths := by decide
  have htext := ofText_of_rules countedSuffix (.ofStem "a".toList) 1 true twoDefaults hne
  rw [tables_dividedFile, rules_twoDefaults, ← hstem] at htext
  have hconvert : dividedFile.convert onePerTable tree = _ := Job.convert_of_ofText hread htext
  exact ⟨_, hpaths ▸ hconvert⟩

/-- The output directory when the second document cannot be written. -/
def blockedPart : FileTree := dividedIn [.directory "a_part2.dmn".toList []]

/-- **A second part that goes nowhere** leaves the first one behind. -/
theorem not_allOrNothing_blockedPart : ¬ dividedFile.AllOrNothing onePerTable blockedPart := by
  have hread : blockedPart.readText dividedFile.path = .ok twoDefaults := by cbv
  have hlead : blockedPart.lead true "output/a_part1.dmn".toList
      = .ok (.free ["output".toList] "a_part1.dmn".toList) := by cbv
  have hlead' : blockedPart.lead true "output/a_part2.dmn".toList
      = .ok (.node ["output".toList, "a_part2.dmn".toList]) := by cbv
  have hfirst := landing?_of_lead hlead rfl
  have hsecond := landing?_eq_none_of_lead hlead' rfl
  have hbefore : blockedPart.kindAt ["output".toList, "a_part1.dmn".toList] = none := by decide
  obtain ⟨skipped, hconvert⟩ := convert_dividedFile hread
  obtain ⟨hwritten, ⟨hall, -⟩ | ⟨-, error, houtcome⟩⟩ := Job.alone_of_convert hconvert
  · obtain ⟨place, hplace⟩ := hall _ (List.mem_cons_of_mem _ List.mem_cons_self)
    cases hsecond.symm.trans hplace
  · intro h
    have hlanded : blockedPart.landed dividedDocuments
        = [("output/a_part1.dmn".toList, firstTable.document)] := by
      simp only [landed, dividedDocuments, dividedPaths, List.zip_cons_cons, List.takeWhile_cons,
        hfirst, hsecond]
      rfl
    rw [hlanded] at hwritten
    obtain ⟨last, hlast⟩ := exists_lastAt? (List.mem_singleton_self _) hfirst
    have hthere := hwritten.unchanged_iff.mp (h _ houtcome) _ _ hlast
    cases hbefore.symm.trans hthere

end RuleTable
