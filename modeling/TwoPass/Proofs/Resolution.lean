import TwoPass.Proofs.Listing

/-!
Resolution of symbols over both passes. In a program that was laid out to its end, a
symbol has the address of the last statement that defines it, wherever that stands
(`address?_of_last_definition`), and none if no statement does (`address?_eq_none_iff`).
So the listing holds in each instruction what the whole program says about its operand,
and what is reported are the operands that no statement defines
(`ResolutionLaw`).
-/
namespace TwoPass

open Text

/-- Records define what their statements define. -/
theorem map_symbol?_eq {records : List Record} {statements : List Statement}
    (carried : List.Forall₂ Record.Carries records statements) :
    records.map Record.symbol? = statements.map fun statement => symbolOf statement.opcode statement.label := by
  induction carried with
  | nil => rfl
  | cons carries _ ih => rw [List.map_cons, List.map_cons, ih, Record.symbol?, carries.opcode, carries.label]

section
variable {settings : Settings} {table : OpcodeTable} {statements : List Statement} {symbol : String}

/-- A symbol is undefined exactly if no statement of the program defines it. -/
theorem address?_eq_none_iff (complete : (layOut settings table statements).aborted = false) :
    (layOut settings table statements).symbols.address? symbol = none ↔
      ∀ statement ∈ statements, symbolOf statement.opcode statement.label ≠ some symbol := by
  have described := layOut_describes settings table statements
  have same := map_symbol?_eq (layOut_carries_all complete)
  have defined : ((layOut settings table statements).symbols.address? symbol).isSome ↔
      ∃ statement ∈ statements, symbolOf statement.opcode statement.label = some symbol := by
    rw [SymbolTable.address?_isSome_iff, described.mem_names_iff, ← List.mem_map, same, List.mem_map]
  rw [← Option.not_isSome_iff_eq_none, defined]
  simp only [not_exists, not_and, ne_eq]

/-- The last statement that defines a symbol gives it the address of its record. -/
theorem address?_of_last_definition (complete : (layOut settings table statements).aborted = false)
    {earlier later : List Statement} {statement : Statement} (split : statements = earlier ++ statement :: later)
    (defines : symbolOf statement.opcode statement.label = some symbol)
    (last : ∀ other ∈ later, symbolOf other.opcode other.label ≠ some symbol) :
    ∃ record address, (layOut settings table statements).records[earlier.length]? = some record ∧
      record.Carries statement ∧ record.address = some address ∧
        (layOut settings table statements).symbols.address? symbol = some address := by
  have carried := layOut_carries_all complete
  rw [split] at carried
  obtain ⟨front, record, back, records, length, carries, backCarries⟩ := exists_record_of_split carried
  rw [← split] at records
  have recordDefines : record.symbol? = some symbol := by
    rw [Record.symbol?, carries.opcode, carries.label, defines]
  have recordLast : ∀ other ∈ back, other.symbol? ≠ some symbol := by
    intro other member again
    have listed : some symbol ∈ back.map Record.symbol? := List.mem_map.mpr ⟨other, member, again⟩
    rw [map_symbol?_eq backCarries] at listed
    obtain ⟨statement, later, again⟩ := List.mem_map.mp listed
    exact last statement later again
  obtain ⟨address, stands, found⟩ := (layOut_describes settings table statements).address_of_definer
    ((definer?_eq_some_iff _ symbol record).mpr ⟨recordDefines, front, back, records, recordLast⟩)
  refine ⟨record, address, ?_, carries, stands, found⟩
  rw [records, ← length]
  simp

end

namespace Encoder

theorem diagnosticsOf_closedEvents (closed : List Packing.Closed) : diagnosticsOf (closed.map closedEvent) = [] := by
  induction closed with
  | nil => rfl
  | cons first rest ih => exact ih

/-- Packing reports nothing but code without an address, which is a general fault. -/
theorem eventsFrom_reports (encoder : Encoder) {category : Category} (special : category ≠ .general)
    (current : Option TextRecord) (records : List Record) :
    ofCategory category (diagnosticsOf (encoder.eventsFrom current records)) =
      records.flatMap fun record => ofCategory category (diagnosticsOf (encoder.recordEvents record)) := by
  induction records generalizing current with
  | nil =>
    rw [eventsFrom, diagnosticsOf_closedEvents]
    rfl
  | cons record rest ih =>
    rw [eventsFrom, List.flatMap_cons]
    split
    next fragment _ =>
      rw [diagnosticsOf_append, diagnosticsOf_append, diagnosticsOf_closedEvents, List.append_nil, ofCategory_append, ih]
    next =>
      have unplaced : ofCategory category (diagnosticsOf
          (if (encoder.listingLine record).code.isEmpty then []
            else [encoder.report record (.noAddress record.opcode)])) = [] := by
        split
        · rfl
        · simp [report, ofCategory, Diagnostic.category, Cause.category, special.symm]
      rw [diagnosticsOf_append, diagnosticsOf_append, ofCategory_append, ofCategory_append, unplaced, List.append_nil, ih]

theorem encodingEvents_reports (encoder : Encoder) {category : Category} (special : category ≠ .general)
    (records : List Record) :
    ofCategory category (diagnosticsOf (encodingEvents encoder records)) =
      (throughEnd records).flatMap fun record => ofCategory category (diagnosticsOf (encoder.recordEvents record)) := by
  rw [encodingEvents, diagnosticsOf_append, ofCategory_append, eventsFrom_reports encoder special]
  exact List.append_nil _

/-- The report that the operand of a record is not defined. -/
def unresolvedReport (encoder : Encoder) (record : Record) : Diagnostic :=
  { cause := .unresolvedSymbol (record.operand.getD "") (encoder.symbols.similar (record.operand.getD ""))
    severity := if encoder.settings.strict then .error else .warning
    location := encoder.location? record
    sourceLine := record.sourceLine }

/-- Whether a record is an instruction with a proper code and an operand of some kind. -/
def refersTo (table : OpcodeTable) (kind : String → Bool) (record : Record) : Bool :=
  match table.operation record.opcode, operand? record with
  | .instruction code, some symbol => isHexByte code && kind symbol
  | _, _ => false

/-- Whether a record is an instruction with an operand that is not defined. -/
def isUnresolved (encoder : Encoder) (record : Record) : Bool :=
  refersTo encoder.table (fun symbol => (encoder.symbols.address? symbol).isNone) record

theorem operand_of_operand? {record : Record} {symbol : String} (operand : operand? record = some symbol) :
    record.operand = some symbol :=
  (Option.filter_eq_some_iff.mp operand).1

/-- The report that the table gives an instruction no proper code. -/
def improperReport (encoder : Encoder) (record : Record) (code : String) : Diagnostic :=
  { cause := .notHexByte record.opcode code
    location := encoder.location? record
    sourceLine := record.sourceLine }

/-- Where a code is proper, the operand is the only thing to report. -/
theorem diagnosticsOf_instructionEvents {encoder : Encoder} {record : Record} {code : String}
    (means : encoder.table.operation record.opcode = .instruction code) :
    diagnosticsOf (encoder.instructionEvents record code) =
      if isHexByte code then if encoder.isUnresolved record then [encoder.unresolvedReport record] else []
      else [encoder.improperReport record code] := by
  simp only [instructionEvents, means, isUnresolved, refersTo]
  by_cases proper : isHexByte code
  · cases operand : operand? record with
    | none => simp [proper]
    | some symbol =>
      have named : record.operand.getD "" = symbol := by rw [operand_of_operand? operand, Option.getD_some]
      cases found : encoder.symbols.address? symbol with
      | some address => simp [proper, found]
      | none =>
        simp only [proper, found, unresolvedReport, named, Option.isSome_none, Option.isNone_none, Bool.not_true,
          Bool.and_self, Bool.false_eq_true, if_true, if_false]
        rfl
  · simp only [proper, Bool.not_false, if_true, Bool.false_eq_true, if_false]
    rfl

theorem isHexByte_of_isUnresolved {encoder : Encoder} {record : Record} {code : String}
    (means : encoder.table.operation record.opcode = .instruction code) (unresolved : encoder.isUnresolved record) :
    isHexByte code := by
  simp only [isUnresolved, refersTo, means] at unresolved
  split at unresolved
  next same _ =>
    obtain rfl := Operation.instruction.inj same
    exact (Bool.and_eq_true_iff.mp unresolved).1
  next => contradiction

/-- An undefined operand is reported once, and nothing else is reported as undefined. -/
theorem recordEvents_unresolved (encoder : Encoder) (record : Record) :
    ofCategory .unresolvedSymbol (diagnosticsOf (encoder.recordEvents record)) =
      if encoder.isUnresolved record then [encoder.unresolvedReport record] else [] := by
  -- Operands of words and bytes are at worst malformed.
  have malformed {α : Type} (outcome : Except OperandFault α) :
      ofCategory .unresolvedSymbol (diagnosticsOf (encoder.operandEvents record outcome)) = [] := by
    cases outcome <;> rfl
  unfold recordEvents
  cases means : encoder.table.operation record.opcode with
  | directive directive =>
    simp only [isUnresolved, refersTo, means]
    cases directive with
    | word => exact malformed _
    | byte => exact malformed _
    | _ => rfl
  | instruction code =>
    dsimp only
    rw [diagnosticsOf_instructionEvents means]
    by_cases unresolved : encoder.isUnresolved record
    · rw [if_pos (isHexByte_of_isUnresolved means unresolved), if_pos unresolved]
      rfl
    · rw [if_neg unresolved]
      split <;> rfl
  | unknown =>
    simp only [isUnresolved, refersTo, means, unknownOpcodeEvents]
    split <;> rfl

private theorem flatMap_ite_singleton {α β : Type} (keep : α → Bool) (image : α → β) (items : List α) :
    (items.flatMap fun item => if keep item then [image item] else []) = (items.filter keep).map image := by
  induction items with
  | nil => rfl
  | cons item rest ih =>
    rw [List.flatMap_cons, ih, List.filter_cons]
    split <;> rfl

/-- The undefined operands that encoding reports, in order. -/
theorem encodingEvents_unresolved (encoder : Encoder) (records : List Record) :
    ofCategory .unresolvedSymbol (diagnosticsOf (encodingEvents encoder records)) =
      ((throughEnd records).filter encoder.isUnresolved).map encoder.unresolvedReport := by
  rw [encodingEvents_reports encoder (by decide)]
  simp only [recordEvents_unresolved]
  exact flatMap_ite_singleton encoder.isUnresolved encoder.unresolvedReport (throughEnd records)

theorem unresolvedReport_isWarning (encoder : Encoder) (record : Record) :
    (encoder.unresolvedReport record).isWarning = !encoder.settings.strict := by
  unfold unresolvedReport
  cases encoder.settings.strict <;> rfl

/-- Strict settings decide whether undefined operands are errors or warnings. -/
theorem encodingEvents_unresolved_sorted (encoder : Encoder) (records : List Record) :
    ofCategory .unresolvedSymbol ((diagnosticsOf (encodingEvents encoder records)).filter (!·.isWarning)) =
        (if encoder.settings.strict then
          ((throughEnd records).filter encoder.isUnresolved).map encoder.unresolvedReport else []) ∧
      ofCategory .unresolvedSymbol ((diagnosticsOf (encodingEvents encoder records)).filter (·.isWarning)) =
        (if encoder.settings.strict then []
          else ((throughEnd records).filter encoder.isUnresolved).map encoder.unresolvedReport) := by
  rw [ofCategory_filter, ofCategory_filter, encodingEvents_unresolved, List.filter_map, List.filter_map]
  simp only [Function.comp_def, unresolvedReport_isWarning]
  cases encoder.settings.strict <;> simp

end Encoder

/-- Whether no statement of a program defines a symbol. -/
def undefinedIn (statements : List Statement) (symbol : String) : Bool :=
  statements.all fun statement => symbolOf statement.opcode statement.label ≠ some symbol

/-- What the code of a line is that holds an instruction with the given code. -/
structure InstructionLaw (statements : List Statement) (layout : Layout) (line : ListingLine) (code : String) : Prop where
  /-- Without an operand, the code of the mnemonic in capital letters. -/
  bare : Encoder.operand? line.record = none → line.code = String.ofList (code.toList.map Char.toUpper)
  /-- With an operand that is defined, this and the address of its last definition in four digits. -/
  defined : ∀ symbol earlier statement later, Encoder.operand? line.record = some symbol →
    statements = earlier ++ statement :: later → symbolOf statement.opcode statement.label = some symbol →
    (∀ other ∈ later, symbolOf other.opcode other.label ≠ some symbol) →
      ∃ record digits, ∃ address : Nat, layout.records[earlier.length]? = some record ∧ record.Carries statement ∧
        record.address = some (address : Int) ∧ IsNumeral 4 address digits ∧
        line.code = String.ofList (code.toList.map Char.toUpper) ++ digits
  /-- With any other operand, the code of the mnemonic alone. -/
  undefined : ∀ symbol, Encoder.operand? line.record = some symbol →
    (∀ statement ∈ statements, symbolOf statement.opcode statement.label ≠ some symbol) →
      line.code = String.ofList (code.toList.map Char.toUpper)

section
variable {settings : Settings} {table : OpcodeTable} {statements : List Statement}

/-- The lookups of the encoder agree with the whole program. -/
theorem isUnresolved_eq (complete : (layOut settings table statements).aborted = false) (file : String)
    (warnUnknown : Bool) :
    (programEncoder settings table statements file warnUnknown).isUnresolved =
      Encoder.refersTo table (undefinedIn statements) := by
  have agree : (fun symbol => ((layOut settings table statements).symbols.address? symbol).isNone) =
      undefinedIn statements := by
    funext symbol
    rw [Bool.eq_iff_iff, Option.isNone_iff_eq_none, address?_eq_none_iff complete]
    simp [undefinedIn]
  funext record
  exact congrArg (Encoder.refersTo table · record) agree

theorem listing_instructionLaw (complete : (layOut settings table statements).aborted = false) {file : String}
    {warnUnknown : Bool} {line : ListingLine} {code : String}
    (member : line ∈ (programEncoder settings table statements file warnUnknown).listing
      (layOut settings table statements).records)
    (means : table.operation line.record.opcode = .instruction code) (proper : Encoder.isHexByte code) :
    InstructionLaw statements (layOut settings table statements) line code := by
  have lineCode := (Encoder.mem_listing member).2
  rw [Encoder.recordCode_instruction means proper] at lineCode
  have alone (unresolved : (Encoder.operand? line.record).bind
      (layOut settings table statements).symbols.address? = none) :
      line.code = String.ofList (code.toList.map Char.toUpper) := by
    rw [lineCode, Encoder.addressField_of_unresolved unresolved, String.append_empty]
  refine ⟨?_, ?_, ?_⟩
  · intro absent
    exact alone (by rw [absent]; rfl)
  · intro symbol earlier statement later operand split defines last
    obtain ⟨record, address, recorded, carries, stands, found⟩ :=
      address?_of_last_definition complete split defines last
    obtain ⟨value, rfl, numeral⟩ := layOut_address_numeral found
    refine ⟨record, _, value, recorded, carries, stands, numeral, ?_⟩
    rw [lineCode, Encoder.addressField_of_resolved (by rw [operand]; exact found)]
  · intro symbol operand none
    exact alone (by rw [operand]; exact (address?_eq_none_iff complete).mpr none)

end

/-- The reports of the lines with an operand that no statement of the program defines. -/
def danglingReports (encoder : Encoder) (statements : List Statement) (records : List Record) : List Diagnostic :=
  ((encode encoder records).listing.filter fun line =>
    Encoder.refersTo encoder.table (undefinedIn statements) line.record).map fun line =>
      encoder.unresolvedReport line.record

/-- How a listing and what was reported with it follow from the program. -/
structure ResolutionLaw (encoder : Encoder) (statements : List Statement) (layout : Layout)
    (errors warnings : List Diagnostic) : Prop where
  /-- Every instruction refers to the whole program. -/
  codes : ∀ line ∈ (encode encoder layout.records).listing, ∀ code,
    encoder.table.operation line.record.opcode = .instruction code → Encoder.isHexByte code →
      InstructionLaw statements layout line code
  /-- Under strict settings the undefined operands are the errors of their kind, one for each line. -/
  errors : ofCategory .unresolvedSymbol errors =
    if encoder.settings.strict then danglingReports encoder statements layout.records else []
  /-- Under other settings they are the warnings of their kind. -/
  warnings : ofCategory .unresolvedSymbol warnings =
    if encoder.settings.strict then [] else danglingReports encoder statements layout.records

/-- Once both passes are complete, the listing and what the second pass added to the
    errors and warnings are those that the program as a whole asks for. -/
theorem instructions_resolved (settings : Settings) (table : OpcodeTable) (statements : List Statement) (file : String)
    (warnUnknown : Bool) {before after : Journal} (complete : (layOut settings table statements).aborted = false)
    (returned : before.replay (encodingEvents (programEncoder settings table statements file warnUnknown)
      (layOut settings table statements).records) = (after, none)) :
    ∃ errors warnings, after.collector.errors = before.collector.errors ++ errors ∧
      after.collector.warnings = before.collector.warnings ++ warnings ∧
      ResolutionLaw (programEncoder settings table statements file warnUnknown) statements
        (layOut settings table statements) errors warnings := by
  have reports : danglingReports (programEncoder settings table statements file warnUnknown) statements
      (layOut settings table statements).records =
        ((throughEnd (layOut settings table statements).records).filter
          (programEncoder settings table statements file warnUnknown).isUnresolved).map
            (programEncoder settings table statements file warnUnknown).unresolvedReport := by
    rw [isUnresolved_eq complete file warnUnknown, danglingReports, encode, Encoder.listing, List.filter_map,
      List.map_map]
    rfl
  obtain ⟨asErrors, asWarnings⟩ := (programEncoder settings table statements file warnUnknown).encodingEvents_unresolved_sorted
    (layOut settings table statements).records
  rw [← reports] at asErrors asWarnings
  rw [Journal.replay_complete returned]
  refine ⟨_, _, rfl, rfl, ?_, asErrors, asWarnings⟩
  intro line member code means proper
  exact listing_instructionLaw complete member means proper

/-- A program with a reference to a symbol that is defined twice behind END, one to the
    label of START and one instruction without an operand. -/
private def referring : List Statement :=
  [{ line := 1, text := "PROG START 1000", label := some "PROG", opcode := "START", operand := some "1000" },
    { line := 2, text := " LDA LATER", opcode := "LDA", operand := some "LATER" },
    { line := 3, text := " LDA PROG", opcode := "LDA", operand := some "PROG" },
    { line := 4, text := " LDA", opcode := "LDA" },
    { line := 5, text := " END", opcode := "END" },
    { line := 6, text := "LATER RESW 1", label := some "LATER", opcode := "RESW", operand := some "1" },
    { line := 7, text := "LATER WORD 5", label := some "LATER", opcode := "WORD", operand := some "5" }]

/-- A table with one instruction. -/
private def loadTable : OpcodeTable :=
  ⟨⟨[("LDA", "0c")]⟩⟩

theorem instructions_resolved_referring :
    (encode (programEncoder {} loadTable referring "<input>" false) (layOut {} loadTable referring).records).codes =
      ["", "0C100C", "0C", "0C", ""] ∧
    ∃ after errors warnings, ({} : Journal).replay (encodingEvents (programEncoder {} loadTable referring "<input>" false)
        (layOut {} loadTable referring).records) = (after, none) ∧
      after.collector.errors = errors ∧ after.collector.warnings = warnings ∧
      ResolutionLaw (programEncoder {} loadTable referring "<input>" false) referring (layOut {} loadTable referring)
        errors warnings := by
  have returned := Journal.replay_of_not_stopped (show (({} : Journal).replay (encodingEvents
      (programEncoder {} loadTable referring "<input>" false) (layOut {} loadTable referring).records)).2 = none
    by decide +kernel)
  obtain ⟨errors, warnings, errorsAre, warningsAre, law⟩ :=
    instructions_resolved {} loadTable referring "<input>" false (by decide +kernel) returned
  exact ⟨by decide +kernel, _, errors, warnings, returned, errorsAre, warningsAre, law⟩

end TwoPass
