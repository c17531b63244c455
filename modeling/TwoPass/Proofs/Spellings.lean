import TwoPass.Proofs.ByteConstants
import TwoPass.Proofs.IntermediateFile

/-!
Spellings of byte constants. `inDigits` writes the byte constants of a program in digits, whatever they were
written in. What happens while the program is laid out and encoded stays the same, and so do its
symbols, its codes and its object program; only the records show which spelling was used (`run_inDigits`,
`inDigits_matches`). Hence programs that are the same in digits are assembled alike
(`assembledAlike_of_inDigits_eq`).
-/
namespace TwoPass

open Text

namespace Operand

/-- The operand of an opcode, in digits if it is a byte constant. -/
def inDigits (opcode : String) (operand : Option String) : Option String :=
  if opcode = Directive.byte.name then ((byteCode operand).toOption.map hexadecimalForm).or operand else operand

theorem inDigits_of_accepted {opcode : String} {operand : Option String} {code : String}
    (isByte : opcode = Directive.byte.name) (accepted : byteCode operand = .ok code) :
    inDigits opcode operand = some (hexadecimalForm code) := by
  rw [inDigits, if_pos isByte, accepted]
  rfl

/-- An operand is kept unless it is a byte constant. -/
theorem inDigits_cases (opcode : String) (operand : Option String) :
    inDigits opcode operand = operand ∨ opcode = Directive.byte.name ∧ ∃ code, byteCode operand = .ok code := by
  by_cases isByte : opcode = Directive.byte.name
  · cases outcome : byteCode operand with
    | ok code => exact .inr ⟨isByte, code, rfl⟩
    | error fault =>
      refine .inl ?_
      rw [inDigits, if_pos isByte, outcome]
      rfl
  · exact .inl (if_neg isByte)

theorem byteCode_inDigits (opcode : String) (operand : Option String) :
    byteCode (inDigits opcode operand) = byteCode operand := by
  rcases inDigits_cases opcode operand with kept | ⟨isByte, code, accepted⟩
  · rw [kept]
  · rw [inDigits_of_accepted isByte accepted, byteCode_hexadecimalForm accepted, accepted]

theorem inDigits_inDigits (opcode : String) (operand : Option String) :
    inDigits opcode (inDigits opcode operand) = inDigits opcode operand := by
  rcases inDigits_cases opcode operand with kept | ⟨isByte, code, accepted⟩
  · rw [kept, kept]
  · rw [inDigits_of_accepted isByte accepted, inDigits_of_accepted isByte (byteCode_hexadecimalForm accepted)]

end Operand

def Statement.inDigits (statement : Statement) : Statement :=
  { statement with operand := Operand.inDigits statement.opcode statement.operand }

def Record.inDigits (record : Record) : Record :=
  { record with operand := Operand.inDigits record.opcode record.operand }

namespace Layout

variable (settings : Settings) (table : OpcodeTable) (progress : Progress)

/-- A constant takes as much room in digits, and nothing else of the layout reads it. -/
theorem placeOther_inDigits {statement : Statement} {code : String} (isByte : statement.opcode = Directive.byte.name)
    (accepted : Operand.byteCode statement.operand = .ok code) :
    placeOther settings table progress statement.inDigits =
      { placeOther settings table progress statement with
        record := (placeOther settings table progress statement).record.map Record.inDigits } := by
  have size (other : Statement) (named : other.opcode = Directive.byte.name)
      (read : Operand.byteCode other.operand = .ok code) :
      statementSize table other.opcode other.operand = .ok (some (code.length / 2)) := by
    rw [statementSize_byte named, read]
    rfl
  have sizeInDigits := size statement.inDigits isByte ((Operand.byteCode_inDigits _ _).trans accepted)
  simp only [placeOther, size statement isByte accepted, sizeInDigits]
  split <;> rfl

theorem place_inDigits (statement : Statement) :
    place settings table progress statement.inDigits =
      { place settings table progress statement with
        record := (place settings table progress statement).record.map Record.inDigits } := by
  -- A constant that is refused keeps its spelling, so that its report tells of the operand as it was written.
  rcases Operand.inDigits_cases statement.opcode statement.operand with kept | ⟨isByte, code, accepted⟩
  · have unchanged : statement.inDigits = statement := by rw [Statement.inDigits, kept]
    have recorded : (place settings table progress statement).record.map Record.inDigits =
        (place settings table progress statement).record := by
      have placement := place_placement settings table progress statement
      cases found : (place settings table progress statement).record with
      | none => rfl
      | some record =>
        rw [found] at placement
        have keptThere : Operand.inDigits record.opcode record.operand = record.operand := by
          rw [placement.carries.opcode, placement.carries.operand, kept]
        rw [Option.map_some, Record.inDigits, keptThere]
    rw [unchanged, recorded]
  · have plain : PlainOpcode statement.opcode := by
      rw [isByte]
      decide
    rw [place_plain plain, place_plain (show PlainOpcode statement.inDigits.opcode from plain),
      placeOther_inDigits settings table progress isByte accepted]
    rfl

/-- A run over the statements in digits leaves its records in digits, and all else as it is. -/
theorem run_inDigits (statements : List Statement) :
    run settings table progress (statements.map Statement.inDigits) =
      { run settings table progress statements with
        records := (run settings table progress statements).records.map Record.inDigits } := by
  induction statements generalizing progress with
  | nil => rfl
  | cons statement rest ih =>
    have step := place_inDigits settings table progress statement
    rw [List.map_cons]
    cases outcome : (place settings table progress statement).fault with
    | some fault =>
      have stopped : (place settings table progress statement.inDigits).fault = some fault := by rw [step, outcome]
      rw [run_cons_fault settings table _ outcome, run_cons_fault settings table _ stopped, step]
      simp only [Option.toList_map]
    | none =>
      have placed : (place settings table progress statement.inDigits).fault = none := by rw [step, outcome]
      rw [run_cons_placed settings table _ outcome, run_cons_placed settings table _ placed, step]
      simp only [Option.toList_map, ih, List.map_append]

end Layout

section
variable (settings : Settings) (table : OpcodeTable) (statements : List Statement)

theorem layOut_inDigits :
    layOut settings table (statements.map Statement.inDigits) =
      { layOut settings table statements with
        records := (layOut settings table statements).records.map Record.inDigits } := by
  rw [layOut, Layout.run_inDigits]
  rfl

theorem layoutEvents_inDigits :
    layoutEvents settings table (statements.map Statement.inDigits) = layoutEvents settings table statements := by
  rw [layoutEvents, layoutEvents, layOut_inDigits, Layout.run_inDigits]
  simp only [Layout.closingEvents, List.length_map]

theorem Encoder.inDigits_matches (encoder : Encoder) : encoder.Matches encoder Record.inDigits id where
  settings := rfl
  address _ := rfl
  label _ := rfl
  opcode _ := rfl
  code record := by
    rcases Operand.inDigits_cases record.opcode record.operand with kept | ⟨isByte, -⟩
    · rw [Record.inDigits, kept]
    · rw [recordCode_byte isByte, recordCode_byte (show record.inDigits.opcode = _ from isByte), Record.inDigits,
        Operand.byteCode_inDigits]
  events record := by
    rcases Operand.inDigits_cases record.opcode record.operand with kept | ⟨isByte, code, accepted⟩
    · rw [Record.inDigits, kept]
    · have silent (other : Record) (named : other.opcode = Directive.byte.name)
          (read : Operand.byteCode other.operand = .ok code) : encoder.recordEvents other = [] := by
        simp only [recordEvents, named, OpcodeTable.operation_name, read, operandEvents]
      rw [silent record isByte accepted, silent record.inDigits isByte]
      rw [Record.inDigits, Operand.byteCode_inDigits, accepted]
  report _ _ := rfl

end

/-- Two programs that are laid out and encoded alike: the same happens, with the same symbols, codes and object
    program. -/
structure AssembledAlike (settings : Settings) (table : OpcodeTable) (file : String) (warnUnknown : Bool)
    (first second : List Statement) : Prop where
  layoutEvents : layoutEvents settings table first = layoutEvents settings table second
  /-- The layouts agree in all but their records, -/
  layout : { layOut settings table first with records := [] } = { layOut settings table second with records := [] }
  /-- and these stand at the same addresses. -/
  addresses : (layOut settings table first).records.map Record.address =
    (layOut settings table second).records.map Record.address
  encodingEvents :
    encodingEvents (programEncoder settings table first file warnUnknown) (layOut settings table first).records =
      encodingEvents (programEncoder settings table second file warnUnknown) (layOut settings table second).records
  encoding : SameEncoding
    (encode (programEncoder settings table first file warnUnknown) (layOut settings table first).records)
    (encode (programEncoder settings table second file warnUnknown) (layOut settings table second).records)

section
variable (settings : Settings) (table : OpcodeTable) (file : String) (warnUnknown : Bool)

/-- A program is assembled as it is in digits. -/
theorem assembledAlike_inDigits (statements : List Statement) :
    AssembledAlike settings table file warnUnknown (statements.map Statement.inDigits) statements := by
  have layout := layOut_inDigits settings table statements
  have encoder : programEncoder settings table (statements.map Statement.inDigits) file warnUnknown =
      programEncoder settings table statements file warnUnknown := by
    rw [programEncoder, layout, programEncoder]
  have matching := (programEncoder settings table statements file warnUnknown).inDigits_matches
  refine ⟨layoutEvents_inDigits settings table statements, ?_, ?_, ?_, ?_⟩
  · rw [layout]
  · rw [layout, List.map_map]
    rfl
  · rw [encoder, layout]
    simpa using matching.encodingEvents_map (layOut settings table statements).records
  · rw [encoder, layout, matching.encode_map]
    refine ⟨?_, rfl, rfl, rfl⟩
    rw [Encoding.codes, List.map_map]
    rfl

/-- Programs that are the same in digits are assembled alike. -/
theorem assembledAlike_of_inDigits_eq {first second : List Statement}
    (same : first.map Statement.inDigits = second.map Statement.inDigits) :
    AssembledAlike settings table file warnUnknown first second := by
  have front := assembledAlike_inDigits settings table file warnUnknown first
  have back := assembledAlike_inDigits settings table file warnUnknown second
  rw [same] at front
  refine ⟨front.layoutEvents.symm.trans back.layoutEvents, front.layout.symm.trans back.layout,
    front.addresses.symm.trans back.addresses, front.encodingEvents.symm.trans back.encodingEvents, ?_⟩
  exact ⟨front.encoding.codes.symm.trans back.encoding.codes, front.encoding.program.symm.trans back.encoding.program,
    front.encoding.startAddress.symm.trans back.encoding.startAddress,
    front.encoding.endingAddress.symm.trans back.encoding.endingAddress⟩

end

namespace Operand

/-- What is accepted as a byte constant, what its code is, and that the code in digits is another spelling of it. -/
structure ConstantLaw (constant : String) : Prop where
  accepted_iff : (∃ code, byteCode (some constant) = .ok code) ↔ ∃ bytes, Denotes constant bytes
  encodes : ∀ bytes code, Denotes constant bytes → byteCode (some constant) = .ok code → Encodes bytes code
  inDigits : ∀ code, byteCode (some constant) = .ok code → byteCode (some (hexadecimalForm code)) = .ok code
  /-- A program is assembled alike with the one spelling in a statement and with the other. -/
  assembled : ∀ code, byteCode (some constant) = .ok code →
    ∀ (settings : Settings) (table : OpcodeTable) (file : String) (warnUnknown : Bool) (earlier later : List Statement)
      (statement : Statement), statement.opcode = Directive.byte.name → statement.operand = some constant →
        AssembledAlike settings table file warnUnknown (earlier ++ statement :: later)
          (earlier ++ { statement with operand := some (hexadecimalForm code) } :: later)

/-- A text is accepted exactly if it is a byte constant, with the code of the bytes that it denotes, and the constant
    of this code in digits stands for it in every program. -/
theorem byteCode_constantLaw (constant : String) : ConstantLaw constant := by
  refine ⟨⟨?_, ?_⟩, ?_, ?_, ?_⟩
  · rintro ⟨code, accepted⟩
    exact exists_denotes accepted
  · rintro ⟨bytes, denotes⟩
    obtain ⟨code, accepted, -⟩ := denotes.accepted
    exact ⟨code, accepted⟩
  · intro bytes code denotes accepted
    obtain ⟨other, found, encodes⟩ := denotes.accepted
    obtain rfl := Except.ok.inj (found.symm.trans accepted)
    exact encodes
  · intro code accepted
    exact byteCode_hexadecimalForm accepted
  · intro code accepted settings table file warnUnknown earlier later statement isByte operand
    rw [← operand] at accepted
    have rewritten : { statement with operand := some (hexadecimalForm code) } = statement.inDigits := by
      rw [Statement.inDigits, inDigits_of_accepted isByte accepted]
    have again : statement.inDigits.inDigits = statement.inDigits :=
      congrArg (fun operand => { statement with operand }) (inDigits_inDigits statement.opcode statement.operand)
    apply assembledAlike_of_inDigits_eq
    rw [rewritten, List.map_append, List.map_append, List.map_cons, List.map_cons, again]

end Operand

end TwoPass
