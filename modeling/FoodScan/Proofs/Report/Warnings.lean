import FoodScan.Proofs.Json.Reader
import FoodScan.Proofs.Query.Reading
import FoodScan.Proofs.Query.Warnings
import FoodScan.Proofs.Session.Runs
import FoodScan.Proofs.Text.ByteOrder

/-!
# Printed warnings

Warnings are counted by their texts, and only then is told what they are about. The text of a
warning determines the field, so a count of texts is a count of records, provided that no field is
asked for twice.

* `Report.get?_tally` — a text is counted as often as it occurs.
* `Query.count_lackingFields` — a field is lacking as often as it is asked for, in each record that
  lacks it.
* `Report.warningEntry_injective` — a line tells its field, whatever the count.
* `Query.ListsLacking.warnings_eq`, `Query.ListsLacking.sum_eq` — what is printed, and the total.

Main result: `warnings_count_lacking_records`.
-/

namespace FoodScan

-- ---------------------------------------------------------------------------
-- Counting texts
-- ---------------------------------------------------------------------------

namespace Report

/-- One more message raises the count of its text by one. -/
theorem tally_append_singleton (texts : List String) (text : String) :
    tally (texts ++ [text]) =
      (tally texts).insert text (((tally texts).get? text).getD 0 + 1) := by
  rw [tally, List.foldl_append]
  rfl

/-- A text is counted as often as it occurs. -/
theorem get?_tally (texts : List String) (text : String) :
    (tally texts).get? text = if text ∈ texts then some (texts.count text) else none := by
  induction texts using List.reverseRecOn with
  | nil => rfl
  | append_singleton before last ih =>
    rw [tally_append_singleton, List.count_append]
    -- the induction takes texts off the end, since the tally counts the last one last
    by_cases hText : text = last
    · subst hText
      have hBefore : ((tally before).get? text).getD 0 = before.count text := by
        rw [ih]
        split_ifs with hMem
        · rfl
        · exact (List.count_eq_zero_of_not_mem hMem).symm
      rw [KeyMap.get?_insert_self, hBefore, if_pos (by simp), List.count_singleton_self]
    · have hLast : [last].count text = 0 := List.count_eq_zero_of_not_mem (by simpa using hText)
      rw [KeyMap.get?_insert_of_ne _ hText, ih, hLast, Nat.add_zero]
      simp [hText]

/-- The texts counted are those that came up. -/
theorem mem_keys_tally {texts : List String} {text : String} :
    text ∈ (tally texts).keys ↔ text ∈ texts := by
  rw [← not_iff_not, ← KeyMap.get?_eq_none_iff, get?_tally]
  simp

/-- The entries are the different texts, each with its count. -/
theorem entries_tally (texts : List String) :
    (tally texts).entries = (tally texts).keys.map fun text => (text, texts.count text) := by
  have hCounted : ∀ e ∈ (tally texts).entries, e = (e.1, texts.count e.1) := by
    rintro ⟨text, n⟩ hMem
    have hFound := KeyMap.get?_eq_some_iff.mpr hMem
    rw [get?_tally] at hFound
    split_ifs at hFound
    rw [Option.some.inj hFound]
  rw [KeyMap.keys, Entries.keys, List.map_map]
  exact (List.map_id _).symm.trans (List.map_congr_left hCounted)

/-- No text is left out and none counted twice. -/
theorem sum_counts_tally (texts : List String) :
    ((tally texts).keys.map fun text => texts.count text).sum = texts.length := by
  have hPerm : (tally texts).keys.Perm texts.dedup :=
    (List.perm_ext_iff_of_nodup (tally texts).ascending.nodup_keys (List.nodup_dedup texts)).mpr
      fun text => mem_keys_tally.trans List.mem_dedup.symm
  rw [(hPerm.map _).sum_eq, List.sum_map_count_dedup_eq_length]

end Report

-- ---------------------------------------------------------------------------
-- Counting records
-- ---------------------------------------------------------------------------

/-- The number of records without a field, each by itself even if others have its identifier. -/
def recordsLacking (records : List Record) (field : String) : Nat :=
  records.countP fun r => field ∉ r.fields.keys

theorem recordsLacking_cons (r : Record) (rest : List Record) (field : String) :
    recordsLacking (r :: rest) field =
      recordsLacking rest field + if field ∉ r.fields.keys then 1 else 0 := by
  rw [recordsLacking, List.countP_cons]
  simp only [decide_eq_true_eq]
  rfl

/-- The count of a field is positive when some record lacks it. -/
theorem recordsLacking_pos_iff {records : List Record} {field : String} :
    0 < recordsLacking records field ↔ ∃ r ∈ records, field ∉ r.fields.keys := by
  rw [recordsLacking, List.countP_pos_iff]
  simp only [decide_eq_true_eq]

namespace Query

/-- The fields that warnings are about, record by record. -/
def lackingFields (q : Query) (records : List Record) : List String :=
  records.flatMap fun r => q.fieldNames.filter fun name => name ∉ r.fields.keys

/-- The messages of a query are those for the fields lacked, in the order of its warnings. -/
theorem messages_collect (q : Query) (records : List Record) :
    (q.collect records).warnings.map Warning.message =
      (q.lackingFields records).map unknownFieldMessage := by
  rw [collect_warnings_eq_lacking, lackingFields, List.map_flatMap, List.map_flatMap]
  refine congrArg (List.flatMap · records) (funext fun r => ?_)
  rw [Record.lackingWarnings, List.map_map]
  rfl

/-- A field is lacking as often as it is asked for, in each record that lacks it. -/
theorem count_lackingFields (q : Query) (records : List Record) (field : String) :
    (q.lackingFields records).count field =
      q.fieldNames.count field * recordsLacking records field := by
  induction records with
  | nil => rfl
  | cons r rest ih =>
    rw [lackingFields, List.flatMap_cons, List.count_append, ← lackingFields, ih,
      recordsLacking_cons, Nat.mul_add, Nat.add_comm]
    congr 1
    by_cases hField : field ∈ r.fields.keys
    · rw [if_neg (by simpa using hField), Nat.mul_zero]
      exact List.count_eq_zero_of_not_mem fun hMem =>
        absurd hField (by simpa using (List.mem_filter.mp hMem).2)
    · rw [if_pos hField, Nat.mul_one, List.count_filter (by simpa using hField)]

/-- A lacked field is one that the query names and some record has not. -/
theorem mem_lackingFields_iff {q : Query} {records : List Record} {field : String} :
    field ∈ q.lackingFields records ↔
      field ∈ q.fieldNames ∧ ∃ r ∈ records, field ∉ r.fields.keys := by
  rw [← recordsLacking_pos_iff, ← List.count_pos_iff, ← List.count_pos_iff, count_lackingFields,
    CanonicallyOrderedAdd.mul_pos]

/-- A query that is read asks for no field twice. -/
theorem nodup_fieldNames_of_parse {mode : Mode} {text : String} {q : Query}
    (h : Query.parse mode text = .ok q) : q.fieldNames.Nodup := by
  rw [Query.parse] at h
  split at h
  · rename_i v hRead
    have hCanonical := Json.read_canonical hRead
    cases hCanonical with
    | object hAscending _ =>
      have hTerms := (ofJson_eq_ok_iff.mp h).2
      rw [fieldNames, map_fst_forall₂ hTerms]
      exact hAscending.nodup_keys
    | _ => cases h
  · cases h

end Query

-- ---------------------------------------------------------------------------
-- Entries
-- ---------------------------------------------------------------------------

/-- The text of a warning tells the field. -/
theorem unknownFieldMessage_injective : Function.Injective unknownFieldMessage := by
  intro field field' h
  have hChars := congrArg String.toList h
  simp only [unknownFieldMessage, String.toList_append] at hChars
  exact String.toList_injective (List.append_cancel_left (List.append_cancel_right hChars))

/-- What stands before the last of some character. -/
theorem eq_of_append_cons_eq {α : Type} {c : α} {before before' after after' : List α}
    (hAfter : c ∉ after) (hAfter' : c ∉ after')
    (h : before ++ c :: after = before' ++ c :: after') : before = before' := by
  -- the longer beginning would leave its separator in the remainder behind the shorter one
  rcases List.append_eq_append_iff.mp h with ⟨middle, hBefore, hTail⟩ | ⟨middle, hBefore, hTail⟩
  · cases middle with
    | nil => simpa using hBefore.symm
    | cons d rest =>
      obtain ⟨-, rfl⟩ := List.cons.inj hTail
      simp at hAfter
  · cases middle with
    | nil => simpa using hBefore
    | cons d rest =>
      obtain ⟨-, rfl⟩ := List.cons.inj hTail
      simp at hAfter'

namespace Report

/-- The line for a field and the number of records without it. -/
def warningEntry (field : String) (count : Nat) : String :=
  "warning: `" ++ field ++ "` is not a valid parameter (" ++ toString count ++ " records)\n"

/-- Without colour a warning is the entry for its field. -/
theorem warningLine_plain (field : String) (count : Nat) :
    warningLine false (unknownFieldMessage field) count = warningEntry field count := by
  apply String.toList_injective
  simp [warningLine, warningEntry, unknownFieldMessage, paint, String.toList_append]

/-- Lines for different fields differ, whatever the counts and whatever the names hold. -/
theorem warningEntry_injective {field field' : String} {count count' : Nat}
    (h : warningEntry field count = warningEntry field' count') : field = field' := by
  have hDigits : ∀ n : Nat, '(' ∉ (toString n).toList := by
    intro n hMem
    change '(' ∈ (Nat.repr n).toList at hMem
    rw [Nat.toList_repr] at hMem
    exact absurd (Nat.isDigit_of_mem_toDigits (by decide) (by decide) hMem) (by decide)
  have hSplit : ∀ (field : String) (count : Nat), (warningEntry field count).toList =
      ("warning: `".toList ++ field.toList ++ "` is not a valid parameter ".toList) ++
        '(' :: (toString count).toList ++ " records)\n".toList := by
    intro field count
    simp [warningEntry, String.toList_append]
  have hChars := congrArg String.toList h
  rw [hSplit, hSplit] at hChars
  -- the count is what follows the last bracket that opens
  have hBefore := eq_of_append_cons_eq (hDigits count) (hDigits count')
    (List.append_cancel_right hChars)
  exact String.toList_injective (List.append_cancel_left (List.append_cancel_right hBefore))

end Report

-- ---------------------------------------------------------------------------
-- The printed warnings
-- ---------------------------------------------------------------------------

/-- The fields that a query asks for and some record lacks, in the order of the bytes of the
warnings about them. -/
structure Query.ListsLacking (q : Query) (records : List Record) (fields : List String) : Prop where
  mem_iff : ∀ field,
    field ∈ fields ↔ field ∈ q.fieldNames ∧ ∃ r ∈ records, field ∉ r.fields.keys
  ascending : (fields.map fun field => Text.utf8Bytes (unknownFieldMessage field)).Pairwise
    (List.Lex (· < ·))

namespace Query.ListsLacking

variable {q : Query} {records : List Record} {fields fields' : List String}

/-- Messages in the order of their bytes are messages in the order of texts. -/
theorem ascending_iff :
    (fields.map fun field => Text.utf8Bytes (unknownFieldMessage field)).Pairwise
        (List.Lex (· < ·)) ↔
      (fields.map unknownFieldMessage).Pairwise (· < ·) := by
  rw [List.pairwise_map, List.pairwise_map]
  simp only [Text.lt_iff_utf8Bytes_lt]

/-- There is one such list only. -/
theorem unique (h : q.ListsLacking records fields) (h' : q.ListsLacking records fields') :
    fields = fields' := by
  have hMessages : fields.map unknownFieldMessage = fields'.map unknownFieldMessage := by
    refine (ascending_iff.mp h.ascending).eq_of_mem_iff (ascending_iff.mp h'.ascending)
      fun text => ?_
    simp only [List.mem_map, h.mem_iff, h'.mem_iff]
  exact unknownFieldMessage_injective.list_map hMessages

end Query.ListsLacking

/-- There is such a list: the fields that the counted texts are about. -/
theorem Query.exists_listsLacking (q : Query) (records : List Record) :
    ∃ fields, q.ListsLacking records fields ∧
      (Report.tally ((q.collect records).warnings.map Warning.message)).keys =
        fields.map unknownFieldMessage := by
  rw [messages_collect]
  generalize hTexts : (q.lackingFields records).map unknownFieldMessage = texts
  -- every text counted is the message for some field, so the keys are messages of a list of fields
  have hRange : (Report.tally texts).keys ∈ Set.range (List.map unknownFieldMessage) := by
    rw [Set.range_list_map]
    intro text hText
    rw [Report.mem_keys_tally, ← hTexts] at hText
    obtain ⟨field, -, hField⟩ := List.mem_map.mp hText
    exact ⟨field, hField⟩
  obtain ⟨fields, hFields⟩ := hRange
  refine ⟨fields, ⟨fun field => ?_, ?_⟩, hFields.symm⟩
  · rw [← mem_lackingFields_iff, ← List.mem_map_of_injective unknownFieldMessage_injective, hFields,
      Report.mem_keys_tally, ← hTexts, List.mem_map_of_injective unknownFieldMessage_injective]
  · rw [ListsLacking.ascending_iff, hFields]
    exact List.pairwise_map.mpr (Report.tally texts).ascending

/-- Where no field is asked for twice, there are as many warnings about a field as records that lack
it. -/
theorem Query.count_messages {q : Query} {field : String} (hNames : q.fieldNames.Nodup)
    (hField : field ∈ q.fieldNames) (records : List Record) :
    ((q.collect records).warnings.map Warning.message).count (unknownFieldMessage field) =
      recordsLacking records field := by
  rw [messages_collect, List.count_map_of_injective _ _ unknownFieldMessage_injective,
    count_lackingFields, List.count_eq_one_of_mem hNames hField, Nat.one_mul]

namespace Query.ListsLacking

variable {q : Query} {records : List Record} {fields : List String}

/-- The texts that are counted are the warnings about just these fields. -/
theorem keys_tally (h : q.ListsLacking records fields) :
    (Report.tally ((q.collect records).warnings.map Warning.message)).keys =
      fields.map unknownFieldMessage := by
  obtain ⟨fields', h', hKeys⟩ := q.exists_listsLacking records
  rw [hKeys, h.unique h']

/-- What a text is counted, for each of these fields. -/
theorem count_eq (h : q.ListsLacking records fields) (hNames : q.fieldNames.Nodup) :
    ∀ field ∈ fields,
      ((q.collect records).warnings.map Warning.message).count (unknownFieldMessage field) =
        recordsLacking records field := by
  intro field hField
  exact count_messages hNames ((h.mem_iff field).mp hField).1 records

/-- **Lines.** The printed warnings are a line for each of these fields. -/
theorem warnings_eq (h : q.ListsLacking records fields) (hNames : q.fieldNames.Nodup) :
    Report.warnings false (q.collect records) =
      String.join (fields.map fun field =>
        Report.warningEntry field (recordsLacking records field)) := by
  rw [Report.warnings, Report.entries_tally, h.keys_tally, List.map_map, List.map_map]
  refine congrArg String.join (List.map_congr_left fun field hField => ?_)
  rw [Function.comp_apply, Function.comp_apply, h.count_eq hNames field hField,
    Report.warningLine_plain]

/-- **The total.** The counts of these fields make up all warnings. -/
theorem sum_eq (h : q.ListsLacking records fields) (hNames : q.fieldNames.Nodup) :
    (fields.map fun field => recordsLacking records field).sum =
      (q.collect records).warnings.length := by
  have hSum := Report.sum_counts_tally ((q.collect records).warnings.map Warning.message)
  rw [h.keys_tally, List.map_map, List.length_map] at hSum
  rw [← hSum]
  exact congrArg List.sum
    (List.map_congr_left fun field hField => (h.count_eq hNames field hField).symm)

end Query.ListsLacking

/--
**Printed warnings count records.** Let a query ask for no field twice. Then without color,

1. there is one line for each field that is asked for and that some record lacks, with the number of
   the records that lack it, in the order of the bytes of the warnings, and nothing else;
2. this is what a run that answers the query prints on standard error, after what it logs;
3. the counts sum up to the length of the list of warnings in the outcome as JSON;
4. no two fields share a line, whatever their names.

And a query that is read from a text asks for no field twice.
-/
theorem warnings_count_lacking_records {q : Query} (hNames : q.fieldNames.Nodup)
    (records : List Record) :
    (∃ fields, q.ListsLacking records fields ∧
      Report.warnings false (q.collect records) =
        String.join (fields.map fun field =>
          Report.warningEntry field (recordsLacking records field)) ∧
      (∀ (env : Environment) (tree : FileTree) (args : List String) (settings : Settings)
        (verbosity : Nat) (noColor : Bool) (source : SourceOptions) (text : QueryText)
        (mode : Mode),
        Settings.load tree env.workingDirectory env.settingsPath = .ok settings →
        CommandLine.parse args = .ok ⟨verbosity, noColor, .query source text mode false⟩ →
        (settings.color && !noColor) = false →
        Session.readQuery env tree mode text = .ok q →
        loadRecords tree env.workingDirectory (settings.apply source.config) = .ok records →
          (Session.run env tree args).stderr =
            Session.loadLog verbosity (settings.apply source.config) records ++
              Session.queryLog verbosity q records (q.collect records) ++
              String.join (fields.map fun field =>
                Report.warningEntry field (recordsLacking records field))) ∧
      ∃ ids shown, Report.outcomeJson (q.collect records) =
          .object [("ids", ids), ("warnings", .array shown)] ∧
        (fields.map fun field => recordsLacking records field).sum = shown.length) ∧
    (∀ (field field' : String) (count count' : Nat),
      Report.warningEntry field count = Report.warningEntry field' count' → field = field') ∧
    ∀ (mode : Mode) (text : String) (read : Query), Query.parse mode text = .ok read →
      read.fieldNames.Nodup := by
  refine ⟨?_, fun _ _ _ _ => Report.warningEntry_injective,
    fun _ _ _ => Query.nodup_fieldNames_of_parse⟩
  obtain ⟨fields, hLists, -⟩ := q.exists_listsLacking records
  have hPrinted := hLists.warnings_eq hNames
  refine ⟨fields, hLists, hPrinted, ?_, _, _, rfl, ?_⟩
  · intro env tree args settings verbosity noColor source text mode hSettings hArgs hColor hQuery
      hRecords
    -- the run prints its logs, and then the warnings that were counted
    rw [Session.run_query hSettings hArgs, hQuery]
    dsimp only
    rw [hRecords, hColor, ← hPrinted]
    rfl
  · rw [hLists.sum_eq hNames, List.length_map]

/-- Names of which one begins the others and one holds a quote, and records that share an
identifier: the order is that of the warnings and not of the names. -/
theorem warnings_count_lacking_records_of_shared_identifier :
    let apple : Record := (Record.new 1).withField "a" [.scalar (.int 1)]
    let pear : Record := (Record.new 1).withField "a`" [.nested []]
    let plum : Record := Record.new 1
    let q : Query := ⟨.or, [("a", .one (.int 1)), ("a!", .anyOf []), ("a`", .anyOf [])]⟩
    q.fieldNames.Nodup ∧
      Report.warnings false (q.collect [apple, pear, plum]) =
        "warning: `a!` is not a valid parameter (3 records)\n" ++
        "warning: `a` is not a valid parameter (2 records)\n" ++
        "warning: `a`` is not a valid parameter (2 records)\n" := by
  intro apple pear plum q
  have hNames : q.fieldNames.Nodup := by decide +kernel
  refine ⟨hNames, ?_⟩
  have hLacking : q.lackingFields [apple, pear, plum] =
      ["a!", "a`", "a", "a!", "a", "a!", "a`"] := by
    decide +kernel
  -- a backtick at the end of one name puts it behind the other in the order of bytes
  have hListed : q.ListsLacking [apple, pear, plum] ["a!", "a", "a`"] := by
    refine ⟨fun field => ?_, Query.ListsLacking.ascending_iff.mpr (by decide +kernel)⟩
    rw [← Query.mem_lackingFields_iff, hLacking]
    simp only [List.mem_cons, List.not_mem_nil, or_false]
    tauto
  obtain ⟨⟨fields, hLists, hPrinted, -⟩, -⟩ :=
    warnings_count_lacking_records hNames [apple, pear, plum]
  rw [hPrinted, hLists.unique hListed]
  decide +kernel

end FoodScan
