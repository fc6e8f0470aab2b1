import AstSchema.Proofs.JsonValue
import AstSchema.Proofs.LastWriter
import AstSchema.Proofs.ListingOrder

/-!
# What a listing says

A listing is written as JSON. The writer escapes what has to be escaped and puts every element on a
line of its own, and what it writes is a spelling of what it was given: `Document.spelling_write`.
The line breaks are blanks in front of the first element, behind the last one or on both sides of a
comma, so each belongs to the part that it stands beside.

As no text spells two values, a listing can be told from its text. With the order of the schemas
in it, this says what a run that lists schemas leaves, on the standard output or in a file.
-/

namespace AstSchema

/-! ## Strings -/

namespace Json

/-- Each character is spelled as it is written: control characters by their units if no letter
stands for them, and most characters as they are. -/
theorem charSpelling_writeChar (c : Char) : CharSpelling c (writeChar c) := by
  have hcontrols : ∀ n < 0x20, '0' ∈ hexSpellings (n / 0x1000) ∧
      '0' ∈ hexSpellings (n / 0x100 % 16) ∧ Nat.digitChar (n / 16) ∈ hexSpellings (n / 16 % 16) ∧
      Nat.digitChar (n % 16) ∈ hexSpellings (n % 16) := by decide
  unfold writeChar
  split_ifs with hquote hslash hfeed hreturn htab hback hform hcontrol
  · subst hquote
    exact .short (by decide)
  · subst hslash
    exact .short (by decide)
  · subst hfeed
    exact .short (by decide)
  · subst hreturn
    exact .short (by decide)
  · subst htab
    exact .short (by decide)
  · subst hback
    exact .short (by decide)
  · subst hform
    exact .short (by decide)
  · obtain ⟨ha, hb, hc, hd⟩ := hcontrols c.toNat hcontrol
    have hunits := List.Forall₂.cons (UnitSpelling.intro ha hb hc hd) .nil
    rw [← show units c = [c.toNat] from if_pos (by omega)] at hunits
    exact .escaped hunits
  · exact .literal hquote hslash (Nat.le_of_not_lt hcontrol)

theorem textSpelling_writeString (s : String) : TextSpelling s (writeString s) := by
  refine ⟨s.toList.map writeChar, ?_, by rw [writeString, List.flatMap_def]; rfl⟩
  rw [List.forall₂_map_right_iff, List.forall₂_same]
  exact fun c _ ↦ charSpelling_writeChar c

/-! ## Documents -/

namespace Document

mutual

/-- What a document says. -/
def value : Document → Value
  | text s => .text s
  | array items => .array (values items)
  | object members => .object (memberValues members)

/-- What the elements of an array say. -/
def values : List Document → List Value
  | [] => []
  | item :: items => item.value :: values items

/-- What the members of an object say. -/
def memberValues : List (String × Document) → List (String × Value)
  | [] => []
  | (name, item) :: members => (name, item.value) :: memberValues members

end

theorem values_eq_map (items : List Document) : values items = items.map value := by
  induction items with
  | nil => rfl
  | cons item items ih => rw [values, ih, List.map_cons]

theorem memberValues_eq_map (members : List (String × Document)) :
    memberValues members = members.map fun member ↦ (member.1, member.2.value) := by
  induction members with
  | nil => rfl
  | cons member members ih => rw [memberValues, ih, List.map_cons]

theorem blanks_newline (depth : Nat) : Blanks (newline depth) := by
  intro c hc
  rcases List.mem_cons.mp hc with rfl | hc
  · decide
  · rw [(List.mem_replicate.mp hc).2]
    decide

/-- An element with the line break in front of it and perhaps one behind it. -/
theorem padded_write {depth : Nat} {document : Document} {after : List Char}
    (h : document.value.Spelling (document.write depth)) (hafter : Blanks after) :
    Padded document.value.Spelling (newline depth ++ (document.write depth ++ after)) :=
  ⟨newline depth, document.write depth, after, blanks_newline depth, h, hafter, rfl⟩

/-- A member with the line break in front of it and perhaps one behind it. -/
theorem memberSpelling_write {depth : Nat} {document : Document} {after : List Char}
    (name : String) (h : document.value.Spelling (document.write depth)) (hafter : Blanks after) :
    MemberSpelling name document.value.Spelling
      (newline depth ++ (writeString name ++ ':' :: ' ' :: (document.write depth ++ after))) := by
  refine ⟨newline depth ++ (writeString name ++ []), [' '] ++ (document.write depth ++ after),
    ⟨_, _, _, blanks_newline depth, textSpelling_writeString name, blanks_nil, rfl⟩,
    ⟨_, _, _, ?_, h, hafter, rfl⟩, ?_⟩
  · simp [Blanks]
  · simp

mutual

/-- A document is written as a spelling of what it says. -/
theorem spelling_write (depth : Nat) (document : Document) :
    document.value.Spelling (document.write depth) := by
  match document with
  | text s =>
    rw [value, Value.Spelling, write]
    exact textSpelling_writeString s
  | array [] =>
    rw [value, Value.Spelling, write]
    exact ⟨[], rfl, [], blanks_nil, rfl⟩
  | array (item :: items) =>
    obtain ⟨after, parts, hafter, hitems, hwrite⟩ := exists_items_writeItems depth items
    have hitem := padded_write (spelling_write (depth + 1) item) hafter
    rw [value, Value.Spelling, write, hwrite]
    refine ⟨_ :: parts, ⟨_, parts, hitem, hitems, rfl⟩, [], blanks_nil, ?_⟩
    simp [intercalate_eq_joined, joined, separator]
  | object [] =>
    rw [value, Value.Spelling, write]
    exact ⟨[], rfl, [], blanks_nil, rfl⟩
  | object ((name, item) :: members) =>
    obtain ⟨after, parts, hafter, hmembers, hwrite⟩ := exists_members_writeMembers depth members
    have hmember := memberSpelling_write name (spelling_write (depth + 1) item) hafter
    rw [value, Value.Spelling, write, hwrite]
    refine ⟨_ :: parts, ⟨_, parts, hmember, hmembers, rfl⟩, [], blanks_nil, ?_⟩
    simp [intercalate_eq_joined, joined, separator]

/-- The elements behind another one are written as their spellings. The line break in front of the
bracket belongs to the last element of all, which may be the one before these. -/
theorem exists_items_writeItems (depth : Nat) (items : List Document) :
    ∃ after parts, Blanks after ∧ Value.Items (values items) parts ∧
      writeItems depth items = after ++ (joined false parts ++ [']']) := by
  match items with
  | [] => exact ⟨newline depth, [], blanks_newline depth, rfl, rfl⟩
  | item :: items =>
    obtain ⟨after, parts, hafter, hitems, hwrite⟩ := exists_items_writeItems depth items
    have hitem := padded_write (spelling_write (depth + 1) item) hafter
    refine ⟨[], _ :: parts, blanks_nil, ⟨_, parts, hitem, hitems, rfl⟩, ?_⟩
    rw [writeItems, hwrite]
    simp [joined, separator]

/-- The members behind another one are written as their spellings. -/
theorem exists_members_writeMembers (depth : Nat) (members : List (String × Document)) :
    ∃ after parts, Blanks after ∧ Value.Members (memberValues members) parts ∧
      writeMembers depth members = after ++ (joined false parts ++ ['\x7d']) := by
  match members with
  | [] => exact ⟨newline depth, [], blanks_newline depth, rfl, rfl⟩
  | (name, item) :: members =>
    obtain ⟨after, parts, hafter, hmembers, hwrite⟩ := exists_members_writeMembers depth members
    have hmember := memberSpelling_write name (spelling_write (depth + 1) item) hafter
    refine ⟨[], _ :: parts, blanks_nil, ⟨_, parts, hmember, hmembers, rfl⟩, ?_⟩
    rw [writeMembers, hwrite]
    simp [joined, separator]

end

/-- What is written is told from its text, be there blanks behind it or not. -/
theorem says_render_append (document : Document) {after : String} (hafter : Blanks after.toList) :
    Says (document.render ++ after) document.value := by
  refine says_of_padded ⟨[], document.write 0, after.toList, blanks_nil,
    document.spelling_write 0, hafter, ?_⟩
  rw [render, String.toList_append, String.toList_ofList]
  rfl

end Document

end Json

/-! ## Listings -/

/-- A field in JSON. -/
def Field.json (field : Field) : Json.Value :=
  .object [("name", .text field.name), ("ty", .text field.type)]

/-- A variant in JSON. -/
def Variant.json (variant : Variant) : Json.Value :=
  .object [("name", .text variant.name), ("fields", .array (variant.fields.map Field.json))]

/-- A schema in JSON. -/
def Schema.json (schema : Schema) : Json.Value :=
  .object [("base", .text schema.base), ("variants", .array (schema.variants.map Variant.json))]

theorem Field.value_document (field : Field) : field.document.value = field.json := by
  simp only [document, json, Json.Document.value, Json.Document.memberValues]

theorem Variant.value_document (variant : Variant) : variant.document.value = variant.json := by
  have hfields : variant.fields.map (Json.Document.value ∘ Field.document) =
      variant.fields.map Field.json := List.map_congr_left fun field _ ↦ field.value_document
  simp only [document, json, Json.Document.value, Json.Document.memberValues,
    Json.Document.values_eq_map, List.map_map, hfields]

theorem Schema.value_document (schema : Schema) : schema.document.value = schema.json := by
  have hvariants : schema.variants.map (Json.Document.value ∘ Variant.document) =
      schema.variants.map Variant.json :=
    List.map_congr_left fun variant _ ↦ variant.value_document
  simp only [document, json, Json.Document.value, Json.Document.memberValues,
    Json.Document.values_eq_map, List.map_map, hvariants]

namespace Listing

/-- The members of a listing in JSON. -/
def members (listing : Listing) : List (String × Json.Value) :=
  listing.schemas.map fun schema ↦ (schema.base, schema.json)

theorem value_document (listing : Listing) : listing.document.value = .object listing.members := by
  rw [document, Json.Document.value, Json.Document.memberValues_eq_map, List.map_map]
  exact congrArg _ (List.map_congr_left fun schema _ ↦
    congrArg (Prod.mk schema.base) schema.value_document)

theorem map_fst_members (schemas : List Schema) :
    (ofSchemas schemas).members.map Prod.fst = (schemas.map Schema.base).eraseDups := by
  rw [members, List.map_map, ← map_base_ofSchemas]
  rfl

/-- What a listing says about a category is the last schema of it. -/
theorem lastOf_of_mem_members {schemas : List Schema} {base : String} {v : Json.Value}
    (h : (base, v) ∈ (ofSchemas schemas).members) :
    ∃ schema, Schema.lastOf schemas base = some schema ∧ v = schema.json := by
  obtain ⟨schema, hschema, heq⟩ := List.mem_map.mp h
  obtain ⟨rfl, rfl⟩ := Prod.mk.inj heq
  exact ⟨schema, lastOf_of_mem_ofSchemas schemas schema hschema, rfl⟩

end Listing

/-! ## Categories -/

theorem map_base_of_forall₂ {entries : List FoundEntry} {schemas : List Schema}
    (h : List.Forall₂ (fun found schema ↦ found.schema = .ok schema) entries schemas) :
    schemas.map Schema.base = entries.map fun found ↦ Text.trimmed found.entry.base := by
  induction h with
  | nil => rfl
  | cons hfound _ ih => rw [List.map_cons, List.map_cons, FoundEntry.base_of_schema hfound, ih]

/-! ## Runs -/

/-- A text that has been written can be read. -/
theorem exists_run_writeText (output : Path) (text : String) (w : World) :
    ∃ written w', w.run (writeText output text) = (written, w') ∧ w'.events = w.events ∧
      (written = .ok () → w'.files.ask (readText output) = .ok text) := by
  have hevents := events_writeText output text w
  rcases hwrite : w.run (writeText output text) with ⟨written, w'⟩
  rw [hwrite] at hevents
  refine ⟨written, w', rfl, hevents, ?_⟩
  rintro rfl
  obtain ⟨loc, hstores⟩ := exists_stores_of_writeText hwrite
  exact ask_readText_of_fileAt? hstores.fileAt? (by rw [hstores.content?, if_pos rfl])

namespace ListCommand

/-- A command that lists schemas, as far as the files decide what is listed. -/
theorem run_eq (command : ListCommand) (w : World) :
    w.run command.run =
      match command.schemas w.files with
      | .error failure => (.error failure, w.remark (command.notices w.files))
      | .ok schemas =>
        let text := (Listing.ofSchemas schemas).document.render
        match command.output with
        | none =>
          (.ok .done, (w.remark (command.notices w.files)).report (.generated (text ++ "\n")))
        | some output =>
          let (written, w') := (w.remark (command.notices w.files)).run (writeText output text)
          (written.map fun _ ↦ .done, w') := by
  rw [run, World.run_bind (command.run_listing w)]
  cases command.schemas w.files with
  | error failure => rfl
  | ok schemas =>
    dsimp only [Except.map]
    cases command.output with
    | none => rfl
    | some output =>
      dsimp only
      rcases hrun : (w.remark (command.notices w.files)).run
        (writeText output (Listing.ofSchemas schemas).document.render) with ⟨written, w'⟩
      rw [World.run_bind hrun]
      cases written <;> rfl

/-- Where there are entries, the remarks are on the manifests that they are from, and on the
categories that occur again up to the first entry without a schema. -/
theorem exists_notices {command : ListCommand} {t : FileTree} {entries : List FoundEntry}
    (h : t.entriesOf command.inputs = .ok entries) :
    ∃ paths, List.Forall₂ (fun input ps ↦ t.pathsOf input = .ok ps) command.inputs paths ∧
      command.notices t = paths.flatten.map .loading ++
        redefinitions [] (entries.takeWhile FoundEntry.hasSchema) := by
  obtain ⟨paths, hpaths, hloadings⟩ := FileTree.exists_loadingsOf h
  refine ⟨paths, hpaths, ?_⟩
  rw [notices, hloadings, h]

/-- All entries have schemas, or the first that has none stops the command. -/
theorem schemas_of_entriesOf {command : ListCommand} {t : FileTree} {entries : List FoundEntry}
    (h : t.entriesOf command.inputs = .ok entries) :
    command.schemas t = entries.mapM FoundEntry.schema := by
  rw [schemas, h]
  rfl

end ListCommand

/-- **A listing is JSON that says the last schema of each category, in the order of the first.**
Where every entry has a schema, the text that is generated or written says one object and nothing
else: its keys are the trimmed names of the categories, each where it first occurs, and its values
are the schemas that come last. Every schema that is not the first of its category is remarked on.
Where an entry has no schema, no text is generated and no file is touched. In either case the
remarks are on all manifests, and behind these on the categories that occur again in front of the
first entry without a schema. -/
theorem Invocation.run_list_of_entriesOf {log : LogLevel} {command : ListCommand} {w : World}
    {entries : List FoundEntry} (hdescribe : command.describe = false)
    (hentries : w.files.entriesOf command.inputs = .ok entries) :
    ∃ paths, List.Forall₂ (fun input ps ↦ w.files.pathsOf input = .ok ps) command.inputs paths ∧
    (∀ schemas, List.Forall₂ (fun found schema ↦ found.schema = .ok schema) entries schemas →
      ∃ text members notices,
        Json.Says text (.object members) ∧ Json.Says (text ++ "\n") (.object members) ∧
        members.map Prod.fst =
          (entries.map fun found ↦ Text.trimmed found.entry.base).eraseDups ∧
        (∀ base v, (base, v) ∈ members →
          ∃ schema, Schema.lastOf schemas base = some schema ∧ v = schema.json) ∧
        notices = paths.flatten.map .loading ++ redefinitions [] entries ∧
        notices.countP Notice.isRedefinition + members.length = schemas.length ∧
        (command.output = none → w.run (Invocation.run ⟨log, .list command⟩) =
          (.ok .done, (w.remark notices).report (.generated (text ++ "\n")))) ∧
        ∀ output, command.output = some output → ∃ written w',
          (w.remark notices).run (writeText output text) = (written, w') ∧
          w.run (Invocation.run ⟨log, .list command⟩) = (written.map fun _ ↦ .done, w') ∧
          w'.events = (w.remark notices).events ∧
          (written = .ok () → w'.files.ask (readText output) = .ok text)) ∧
    ((∃ found ∈ entries, ∃ failure, found.schema = .error failure) →
      ∃ failure notices, IsFirstError FoundEntry.schema entries failure ∧
        notices = paths.flatten.map .loading ++
          redefinitions [] (entries.takeWhile FoundEntry.hasSchema) ∧
        w.run (Invocation.run ⟨log, .list command⟩) = (.error failure, w.remark notices) ∧
        (w.remark notices).files = w.files ∧ (w.remark notices).generated = w.generated) := by
  have hrun := command.run_eq w
  -- A command that is only described is never run.
  have hasked : (Invocation.run ⟨log, .list command⟩ : StateM World _) = command.run :=
    if_neg (by simp [Command.isDescribed, hdescribe])
  rw [hasked]
  have hschemas := ListCommand.schemas_of_entriesOf hentries
  obtain ⟨paths, hpaths, hnotices⟩ := ListCommand.exists_notices hentries
  refine ⟨paths, hpaths, fun schemas hall ↦ ?_, ?_⟩
  · rw [mapM_eq_ok_iff.mpr hall] at hschemas
    rw [takeWhile_hasSchema hall] at hnotices
    rw [hschemas] at hrun
    have hsays {after : String} (hafter : Json.Blanks after.toList) :=
      (Listing.ofSchemas schemas).value_document ▸
        (Listing.ofSchemas schemas).document.says_render_append hafter
    have hlength : (Listing.ofSchemas schemas).members.length =
        (schemas.map Schema.base).eraseDups.length := by
      rw [← Listing.map_fst_members, List.length_map]
    refine ⟨(Listing.ofSchemas schemas).document.render, (Listing.ofSchemas schemas).members,
      command.notices w.files, ?_, hsays (by simp [Json.Blanks]), ?_,
      fun base v ↦ Listing.lastOf_of_mem_members, hnotices, ?_, fun hnone ↦ ?_,
      fun output houtput ↦ ?_⟩
    · have hempty : Json.Says ((Listing.ofSchemas schemas).document.render ++ "") _ :=
        hsays (by simp [Json.Blanks])
      rwa [String.append_empty] at hempty
    · rw [Listing.map_fst_members, map_base_of_forall₂ hall]
    · rw [hlength, hnotices, countP_isRedefinition hall]
    · rw [hrun, hnone]
    · obtain ⟨written, w', hwrite, hevents, hread⟩ := exists_run_writeText output
        (Listing.ofSchemas schemas).document.render (w.remark (command.notices w.files))
      refine ⟨written, w', hwrite, ?_, hevents, hread⟩
      rw [hrun, houtput]
      dsimp only
      rw [hwrite]
  · rintro ⟨found, hfound, failure, hfailure⟩
    cases hmapM : entries.mapM FoundEntry.schema with
    | ok schemas =>
      obtain ⟨schema, -, hschema⟩ := exists_of_mapM_eq_ok hmapM hfound
      exact absurd (hschema.symm.trans hfailure) (by simp)
    | error first =>
      rw [hschemas, hmapM] at hrun
      exact ⟨first, command.notices w.files, mapM_eq_error_iff.mp hmapM, hnotices, hrun, rfl,
        w.generated_remark _⟩

/-- The manifest of three schemas, of which the last is of the category of the first, though
written with blanks, and the second has a type in quotes. -/
def repeatedManifest : Manifest :=
  ⟨[⟨"E", ["A: a T"], none, [], [], none⟩, ⟨"F", ["B: b \"U\""], none, [], [], none⟩,
    ⟨" E ", ["C: c T"], none, [], [], none⟩]⟩

/-- Its text. -/
def repeatedText : String :=
  "[[[\"E\",[\"A: a T\"]],[\"F\",[\"B: b \\\"U\\\"\"]],[\" E \",[\"C: c T\"]]]]"

/-- The file with this text. -/
def repeatedFiles : FileTree := ⟨[(["m.json"], .file repeatedText.toUTF8)], []⟩

/-- The last schema is listed in place of the first. -/
theorem run_list_of_entriesOf_repeated :
    ∃ text notices,
      Json.Says text (.object
        [("E", Schema.json ⟨"E", [⟨"C", [⟨"c", "T"⟩]⟩]⟩),
          ("F", Schema.json ⟨"F", [⟨"B", [⟨"b", "\"U\""⟩]⟩]⟩)]) ∧
      notices.countP Notice.isRedefinition = 1 ∧
      notices = [.loading ⟨"m.json"⟩, .redefined " E "] ∧
      World.run ⟨repeatedFiles, []⟩ (Invocation.run ⟨.warning, .list { inputs := ["m.json"] }⟩) =
        (.ok .done, (World.remark ⟨repeatedFiles, []⟩ notices).report
          (.generated (text ++ "\n"))) := by
  have hread : (repeatedFiles.ask (readText ⟨"m.json"⟩)).toOption = some repeatedText := by
    decide +kernel
  have hjson : (Manifest.ofJson repeatedText).toOption = some repeatedManifest := by
    decide +kernel
  have hload := FileTree.manifestAt_eq_ok (eq_ok_of_toOption hread) (eq_ok_of_toOption hjson)
  have hentries : repeatedFiles.entriesOf ["m.json"] =
      .ok (repeatedManifest.schemas.map (FoundEntry.mk ⟨"m.json"⟩)) :=
    FileTree.entriesOf_eq_ok_iff.mpr ⟨[[⟨"m.json"⟩]], _, .cons rfl .nil, .cons hload .nil, rfl⟩
  have hschemas : List.Forall₂ (fun found schema ↦ FoundEntry.schema found = .ok schema)
      (repeatedManifest.schemas.map (FoundEntry.mk ⟨"m.json"⟩))
      [⟨"E", [⟨"A", [⟨"a", "T"⟩]⟩]⟩, ⟨"F", [⟨"B", [⟨"b", "\"U\""⟩]⟩]⟩,
        ⟨"E", [⟨"C", [⟨"c", "T"⟩]⟩]⟩] :=
    .cons rfl (.cons rfl (.cons rfl .nil))
  obtain ⟨paths, hpaths, hall, -⟩ := @Invocation.run_list_of_entriesOf .warning
    { inputs := ["m.json"] } ⟨repeatedFiles, []⟩ _ rfl hentries
  obtain rfl : paths = [[⟨"m.json"⟩]] :=
    Except.ok.inj ((mapM_eq_ok_iff.mpr hpaths).symm.trans rfl)
  obtain ⟨text, members, notices, hsays, -, hkeys, hvalues, hnotices, hcount, hrun, -⟩ :=
    hall _ hschemas
  have hkeys' : members.map Prod.fst = ["E", "F"] := hkeys.trans (by decide +kernel)
  obtain ⟨⟨_, v⟩, _, rfl, rfl, hmembers⟩ := List.map_eq_cons_iff.mp hkeys'
  obtain ⟨⟨_, v'⟩, rfl, rfl⟩ := List.map_eq_singleton_iff.mp hmembers
  obtain ⟨schema, hlast, rfl⟩ := hvalues "E" v List.mem_cons_self
  obtain ⟨schema', hlast', rfl⟩ := hvalues "F" v' (List.mem_cons_of_mem _ List.mem_cons_self)
  obtain rfl := Option.some.inj hlast
  obtain rfl := Option.some.inj hlast'
  have hremarks : notices = [.loading ⟨"m.json"⟩, .redefined " E "] :=
    hnotices.trans (by decide +kernel)
  exact ⟨text, notices, hsays, Nat.add_right_cancel hcount, hremarks, hrun rfl⟩

end AstSchema
