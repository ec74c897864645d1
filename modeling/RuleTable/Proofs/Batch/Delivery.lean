import RuleTable.Proofs.Batch.Outcome

/-!
# What a converted file delivers

The output of a file lists a path for each document, all of them different and directly in the
output directory, and the documents hold the rules of the text. Each path leads somewhere, and what
is found there is the last document that was written there. If no link stands in the output
directory under the name of a document, then **each path holds its own document and nothing else is
changed**; through links, documents may end up elsewhere and replace each other.
-/

set_option autoImplicit false

namespace RuleTable

open Text FileTree

/-! ## Conversions that succeed -/

/-- **A conversion that succeeds** counts the rules and the lines set aside, and its documents hold
the rules. -/
theorem Conversion.holds_of_ofText {suffix : Nat → Text} {decision : Decision}
    {settings : ConversionSettings} {text : Text} {conversion : Conversion}
    (h : (ofText suffix decision settings text).2 = .ok conversion) :
    conversion.rules = (RuleText.read suffix text).rules.length ∧
      conversion.skipped = (RuleText.read suffix text).skipped ∧
      Holds settings.maxRules conversion.documents (RuleText.read suffix text).rules := by
  obtain ⟨limit, check⟩ := settings
  by_cases hrules : (RuleText.read suffix text).rules = []
  · rw [ofText_of_no_rules suffix decision limit check text hrules] at h
    cases h
  · rw [ofText_of_rules suffix decision limit check text hrules] at h
    cases h
    exact ⟨rfl, rfl, holds_tables decision limit hrules fun rule hr =>
      RuleText.isTrimmed_of_mem_rules hr⟩

namespace Job

variable {settings : BatchSettings} {tree : FileTree} {job : Job} {output : FileOutput}
  {documents : List (Text × Text)} {texts : List Text}

/-! ## Deliveries -/

/-- **What a file delivers**: an output and the texts of its documents. As many different paths as
documents are listed, directly in the output directory; the documents hold the rules of the text
that was read, and each path holds the last document that goes where it leads. -/
structure Delivers (settings : BatchSettings) (tree : FileTree) (job : Job) (output : FileOutput)
    (texts : List Text) : Prop where
  converted : ∃ text conversion, tree.readText job.path = .ok text ∧
    (Conversion.ofText job.suffix (.ofStem ((Path.fileStem? job.path).getD []))
      settings.conversion text).2 = .ok conversion ∧ conversion.documents = texts ∧
    output.rules = (RuleText.read job.suffix text).rules.length ∧
    output.skipped = (RuleText.read job.suffix text).skipped.length ∧
    Holds settings.conversion.maxRules texts (RuleText.read job.suffix text).rules
  length : output.documents.length = texts.length
  nodup : output.documents.Nodup
  inside : ∀ path ∈ output.documents, ∃ name, Path.IsName name ∧
    path = Path.child settings.outputDirectory name
  written : tree.HasWritten (output.documents.zip texts) (job.alone settings tree).tree
  readable : ∀ path ∈ output.documents, ∃ place last, tree.landing? path = some place ∧
    tree.lastAt? (output.documents.zip texts) place = some last ∧
    (job.alone settings tree).tree.readText path = .ok last
  own : (output.documents.map tree.landing?).Nodup → List.Forall₂
    (fun path text => (job.alone settings tree).tree.readText path = .ok text)
    output.documents texts

/-- Whether no link stands in the output directory under the name of a document. -/
def Unlinked (settings : BatchSettings) (tree : FileTree) (output : FileOutput) : Prop :=
  ∀ location, tree.LeadsInto settings.outputDirectory location →
    ∀ name, Path.child settings.outputDirectory name ∈ output.documents →
      ∀ target, tree.kindAt (location ++ [name]) ≠ some (.link target)

/-- **A file delivers each document where it is listed**, and changes nothing else. -/
structure DeliversInPlace (settings : BatchSettings) (tree : FileTree) (job : Job)
    (output : FileOutput) (texts : List Text) : Prop where
  own : List.Forall₂ (fun path text => (job.alone settings tree).tree.readText path = .ok text)
    output.documents texts
  frame : ∃ location, tree.LeadsInto settings.outputDirectory location ∧
    ∀ place, (∀ name, Path.child settings.outputDirectory name ∈ output.documents →
      place ≠ location ++ [name]) →
        (job.alone settings tree).tree.kindAt place = tree.kindAt place

/-- **What is converted and written is delivered.** -/
theorem delivers_of_convert (h : job.convert settings tree = .ok (output, documents))
    (hland : tree.AllLand documents) :
    ∃ texts, documents = output.documents.zip texts ∧ job.Delivers settings tree output texts := by
  obtain ⟨hwritten, -⟩ := alone_of_convert h
  rw [hland.landed_eq] at hwritten
  obtain ⟨hpaths, hfirsts, -⟩ := convert_spec h
  obtain ⟨text, conversion, hread, htext, houtput, rfl, hlength⟩ := exists_of_convert h
  obtain ⟨hrules, hskipped, hholds⟩ := Conversion.holds_of_ofText htext
  have hlisted : ∀ path ∈ output.documents, ∃ text,
      (path, text) ∈ output.documents.zip conversion.documents := by
    intro path hpath
    rw [← hfirsts] at hpath
    obtain ⟨⟨path, text⟩, hmem, rfl⟩ := List.mem_map.mp hpath
    exact ⟨text, hmem⟩
  refine ⟨conversion.documents, rfl, ?_⟩
  exact {
    converted := ⟨text, conversion, hread, htext, rfl, by rw [houtput, hrules],
      by rw [houtput, hskipped], hholds⟩
    length := hlength
    nodup := by
      rw [hpaths]
      exact (nodup_documentNames _ _).map (Path.child_injective _)
    inside := fun path hpath => job.exists_name_of_mem_documentPaths settings (hpaths ▸ hpath)
    written := hwritten
    readable := by
      intro path hpath
      obtain ⟨text, hmem⟩ := hlisted path hpath
      obtain ⟨place, hplace⟩ := hland _ hmem
      obtain ⟨last, hlast⟩ := exists_lastAt? hmem hplace
      exact ⟨place, last, hplace, hlast, hwritten.readText hplace hlast⟩
    own := by
      intro hnodup
      rw [← hfirsts, List.map_map] at hnodup
      refine List.forall₂_iff_zip.mpr ⟨hlength, fun hmem => ?_⟩
      exact hwritten.readText_of_nodup hland hnodup _ hmem }

/-- A file that delivers has a document. -/
theorem Delivers.documents_ne_nil (h : job.Delivers settings tree output texts) :
    output.documents ≠ [] := by
  obtain ⟨text, conversion, -, htext, rfl, -⟩ := h.converted
  have hpositive := List.length_pos_iff.mpr (Conversion.documents_ne_nil htext)
  exact List.length_pos_iff.mp (h.length ▸ hpositive)

/-- The texts of the documents are determined. -/
theorem Delivers.unique {others : List Text} (h : job.Delivers settings tree output texts)
    (h' : job.Delivers settings tree output others) : texts = others := by
  obtain ⟨text, conversion, hread, htext, rfl, -⟩ := h.converted
  obtain ⟨text', conversion', hread', htext', rfl, -⟩ := h'.converted
  obtain rfl := Except.ok.inj (hread.symm.trans hread')
  rw [Except.ok.inj (htext.symm.trans htext')]

/-- **Without links, documents go into the output directory**, each under its name. -/
theorem Delivers.exists_location (h : job.Delivers settings tree output texts)
    (hunlinked : Unlinked settings tree output) :
    ∃ location, tree.LeadsInto settings.outputDirectory location ∧
      ∀ name, Path.child settings.outputDirectory name ∈ output.documents →
        tree.landing? (Path.child settings.outputDirectory name) = some (location ++ [name]) := by
  have hinto : ∀ name, Path.child settings.outputDirectory name ∈ output.documents →
      ∃ location, tree.LeadsInto settings.outputDirectory location ∧
        tree.landing? (Path.child settings.outputDirectory name) = some (location ++ [name]) := by
    intro name hlisted
    obtain ⟨other, hname, hsame⟩ := h.inside _ hlisted
    obtain rfl := Path.child_injective _ hsame
    obtain ⟨place, -, hplace, -⟩ := h.readable _ hlisted
    obtain ⟨location, hlocation, hunder⟩ := landing?_child hname hplace
    exact ⟨location, hlocation, hplace.trans
      (congrArg some (hunder (hunlinked location hlocation name hlisted)))⟩
  obtain ⟨path, later, hfirst⟩ := List.exists_cons_of_ne_nil h.documents_ne_nil
  have hlisted : path ∈ output.documents := hfirst ▸ List.mem_cons_self
  obtain ⟨name, -, rfl⟩ := h.inside path hlisted
  obtain ⟨location, hlocation, -⟩ := hinto name hlisted
  refine ⟨location, hlocation, fun other hother => ?_⟩
  obtain ⟨location', hlocation', hplace⟩ := hinto other hother
  rw [hlocation.unique hlocation']
  exact hplace

/-- **Without links, documents are delivered in place.** -/
theorem Delivers.inPlace (h : job.Delivers settings tree output texts)
    (hunlinked : Unlinked settings tree output) :
    job.DeliversInPlace settings tree output texts := by
  obtain ⟨location, hlocation, hplaces⟩ := h.exists_location hunlinked
  have hplace : ∀ path ∈ output.documents, ∃ name,
      path = Path.child settings.outputDirectory name ∧
        tree.landing? path = some (location ++ [name]) := by
    intro path hpath
    obtain ⟨name, -, rfl⟩ := h.inside path hpath
    exact ⟨name, rfl, hplaces name hpath⟩
  constructor
  · apply h.own
    refine h.nodup.map_on fun path hpath other hother hsame => ?_
    obtain ⟨name, rfl, hname⟩ := hplace path hpath
    obtain ⟨name', rfl, hname'⟩ := hplace other hother
    rw [hname, hname', Option.some.injEq, List.append_cancel_left_eq, List.singleton_inj] at hsame
    rw [hsame]
  · refine ⟨location, hlocation, fun place hother => ?_⟩
    rw [h.written place]
    cases hlast : tree.lastAt? (output.documents.zip texts) place with
    | none => rfl
    | some last =>
        obtain ⟨path, hmem, hgoes⟩ := exists_of_lastAt? hlast
        have hlisted := (List.of_mem_zip hmem).1
        obtain ⟨name, rfl, hname⟩ := hplace path hlisted
        exact absurd (Option.some.inj (hgoes.symm.trans hname)) (hother name hlisted)

/-- **A file that is converted delivers its documents**, and in place unless a link stands in the
output directory under the name of one of them. -/
theorem delivers_of_outcome (h : (job.alone settings tree).value.outcome = .ok output) :
    ∃ texts, job.Delivers settings tree output texts ∧
      (Unlinked settings tree output → job.DeliversInPlace settings tree output texts) := by
  obtain ⟨documents, hconvert, -⟩ := alone_spec h
  obtain ⟨-, ⟨hland, -⟩ | ⟨-, error, herror⟩⟩ := alone_of_convert hconvert
  · obtain ⟨texts, -, hdelivers⟩ := delivers_of_convert hconvert hland
    exact ⟨texts, hdelivers, hdelivers.inPlace⟩
  · cases h.symm.trans herror

end Job

/-! ## A file in two parts -/

open Conversion

/-- The file is converted where both paths lead somewhere. -/
theorem delivers_dividedFile {tree : FileTree} {first second : List Text}
    (hread : tree.readText dividedFile.path = .ok twoDefaults)
    (hfirst : tree.landing? "output/a_part1.dmn".toList = some first)
    (hsecond : tree.landing? "output/a_part2.dmn".toList = some second) :
    ∃ output, (dividedFile.alone onePerTable tree).value.outcome = .ok output ∧
      output.documents = dividedPaths ∧
      dividedFile.Delivers onePerTable tree output [firstTable.document, secondTable.document] := by
  obtain ⟨skipped, hconvert⟩ := convert_dividedFile hread
  have hland : tree.AllLand dividedDocuments :=
    List.forall_mem_cons.mpr ⟨⟨first, hfirst⟩, List.forall_mem_singleton.mpr ⟨second, hsecond⟩⟩
  obtain ⟨-, ⟨-, houtcome⟩ | ⟨hnot, -⟩⟩ := Job.alone_of_convert hconvert
  · obtain ⟨texts, hzip, hdelivers⟩ := Job.delivers_of_convert hconvert hland
    have htexts : texts = [firstTable.document, secondTable.document] := by
      have hlength : texts.length ≤ dividedPaths.length := hdelivers.length.ge
      rw [← List.map_snd_zip hlength, ← hzip]
      rfl
    exact ⟨_, houtcome, rfl, htexts ▸ hdelivers⟩
  · exact absurd hland hnot

/-- The file when nothing is in the output directory. -/
def emptyOutput : FileTree := dividedIn []

/-- **The file delivers both documents in place.** -/
theorem deliversInPlace_emptyOutput : ∃ output texts,
    (dividedFile.alone onePerTable emptyOutput).value.outcome = .ok output ∧
    dividedFile.Delivers onePerTable emptyOutput output texts ∧
    Job.Unlinked onePerTable emptyOutput output ∧
    dividedFile.DeliversInPlace onePerTable emptyOutput output texts := by
  have hread : emptyOutput.readText dividedFile.path = .ok twoDefaults := by cbv
  have hlead : emptyOutput.lead true "output/a_part1.dmn".toList
      = .ok (.free ["output".toList] "a_part1.dmn".toList) := by cbv
  have hlead' : emptyOutput.lead true "output/a_part2.dmn".toList
      = .ok (.free ["output".toList] "a_part2.dmn".toList) := by cbv
  have hinto : emptyOutput.resolve false (Path.steps "output".toList)
      = .ok (.node ["output".toList]) := by cbv
  obtain ⟨output, houtcome, -, -⟩ := delivers_dividedFile hread (landing?_of_lead hlead rfl)
    (landing?_of_lead hlead' rfl)
  have hunlinked : Job.Unlinked onePerTable emptyOutput output := by
    rintro location ⟨hlocation, -⟩ name - target
    cases hinto.symm.trans hlocation
    have hnone : emptyOutput.kindAt (["output".toList] ++ [name]) = none := rfl
    rw [hnone]
    exact (Option.some_ne_none _).symm
  obtain ⟨texts, hdelivers, hplace⟩ := Job.delivers_of_outcome houtcome
  exact ⟨output, texts, houtcome, hdelivers, hunlinked, hplace hunlinked⟩

/-- The output directory when both documents have the name of a link to one other file. -/
def linkedOutput : FileTree :=
  dividedIn [.link "a_part1.dmn".toList (Path.steps "output/x.dmn".toList),
    .link "a_part2.dmn".toList (Path.steps "output/x.dmn".toList)]

/-- The documents of the two parts differ: their rows have different ids. -/
theorem firstTable_document_ne : firstTable.document ≠ secondTable.document := by
  intro hsame
  have hroots : Except.ok (ε := Fault) firstTable.root = .ok secondTable.root := by
    rw [← firstTable.readDocument_document, hsame, secondTable.readDocument_document]
  have hrows := congrArg Row.all (Except.ok.inj hroots)
  rw [DecisionTable.rows_root, DecisionTable.rows_root] at hrows
  have hids : firstTable.rules.map (·.id) = secondTable.rules.map (·.id) := by
    have hmapped := congrArg (List.map Row.id) hrows
    simpa only [List.map_map, Function.comp_def, ofElement_rowElement] using hmapped
  exact absurd hids (by decide)

/-- **Through links the first path holds the second document**, which stands in a file that is not
listed. -/
theorem not_deliversInPlace_linkedOutput : ∃ output,
    (dividedFile.alone onePerTable linkedOutput).value.outcome = .ok output ∧
    ∀ texts, dividedFile.Delivers onePerTable linkedOutput output texts →
      ¬ dividedFile.DeliversInPlace onePerTable linkedOutput output texts := by
  have hread : linkedOutput.readText dividedFile.path = .ok twoDefaults := by cbv
  have hlead : linkedOutput.lead true "output/a_part1.dmn".toList
      = .ok (.free ["output".toList] "x.dmn".toList) := by cbv
  have hlead' : linkedOutput.lead true "output/a_part2.dmn".toList
      = .ok (.free ["output".toList] "x.dmn".toList) := by cbv
  have hfirst := landing?_of_lead hlead rfl
  have hsecond := landing?_of_lead hlead' rfl
  obtain ⟨output, houtcome, hpaths, hdelivers⟩ := delivers_dividedFile hread hfirst hsecond
  refine ⟨output, houtcome, fun texts htexts hplace => ?_⟩
  obtain rfl := hdelivers.unique htexts
  have hlast : linkedOutput.lastAt?
      (output.documents.zip [firstTable.document, secondTable.document])
      ["output".toList, "x.dmn".toList] = some secondTable.document := by
    rw [hpaths]
    show linkedOutput.lastAt? [(_, _), (_, _)] _ = _
    rw [lastAt?_cons, lastAt?_cons, hsecond]
    rfl
  have hheld := hdelivers.written.readText hfirst hlast
  have hown := hplace.own
  rw [hpaths] at hown
  have hfound := (List.forall₂_cons.mp hown).1
  exact firstTable_document_ne (Except.ok.inj (hfound.symm.trans hheld))

end RuleTable
