import TwoPass.Proofs.CodeSizes
import TwoPass.Proofs.TextRecords

/-!
Loading text records. A loader puts the fragments of a record one behind the other from
the record's start on, whatever addresses their statements have. Within a record every
share but the first is a whole statement (`Fills.orderly`), so the fragments load where
they are listed exactly if each statement starts where the one before it ended
(`loadFrom_iff`); and where no two statements leave a gap, the records load to the memory
that holds every code at the address of its line (`loadedImage_of_contiguous`).
-/
namespace TwoPass

open Text

/-- The bytes that digits spell, two digits each. -/
def spelledBytes : List Char → List Nat
  | high :: low :: rest => digitsValue .sixteen [high, low] :: spelledBytes rest
  | [_] => []
  | [] => []

/-- The byte at each address that holds one. -/
def Memory : Type :=
  Int → Option Nat

namespace Memory

def blank : Memory :=
  fun _ => none

/-- The memory once bytes are written from an address on. -/
def write (memory : Memory) (address : Int) (bytes : List Nat) : Memory := fun place =>
  if address ≤ place ∧ place < address + bytes.length then bytes[(place - address).toNat]? else memory place

/-- The memory once the bytes of a code are written from an address on. -/
def put (memory : Memory) (address : Int) (code : String) : Memory :=
  memory.write address (spelledBytes code.toList)

/-- The memory once a text record is loaded. -/
def load (memory : Memory) (record : TextRecord) : Memory :=
  memory.put record.start record.code

end Memory

/-- The memory once text records are loaded in order. -/
def loadedImage (texts : List TextRecord) : Memory :=
  texts.foldl Memory.load .blank

theorem length_spelledBytes (digits : List Char) : (spelledBytes digits).length = digits.length / 2 := by
  induction digits using spelledBytes.induct with
  | case1 high low rest ih =>
    simp only [spelledBytes, List.length_cons, ih]
    omega
  | case2 => simp [spelledBytes]
  | case3 => rfl

theorem spelledBytes_append (front back : List Char) (even : front.length % 2 = 0) :
    spelledBytes (front ++ back) = spelledBytes front ++ spelledBytes back := by
  induction front using spelledBytes.induct with
  | case1 high low rest ih =>
    simp only [List.length_cons] at even
    simp only [List.cons_append, spelledBytes, ih (by omega)]
  | case2 => simp at even
  | case3 => rfl

namespace Memory

theorem write_append (memory : Memory) (address : Int) (front back : List Nat) :
    memory.write address (front ++ back) = (memory.write address front).write (address + front.length) back := by
  funext place
  simp only [write, List.length_append]
  by_cases inFront : address ≤ place ∧ place < address + front.length
  · rw [if_pos (by omega), if_neg (by omega), if_pos inFront, List.getElem?_append_left (by omega)]
  · by_cases inBack : address + front.length ≤ place ∧ place < address + front.length + back.length
    · rw [if_pos (by omega), if_pos inBack, List.getElem?_append_right (by omega)]
      congr 1
      omega
    · rw [if_neg (by omega), if_neg inBack, if_neg inFront]

theorem put_append (memory : Memory) (address : Int) (front back : String) (even : front.length % 2 = 0) :
    memory.put address (front ++ back) = (memory.put address front).put (address + byteCount front) back := by
  simp only [put, String.toList_append]
  rw [spelledBytes_append _ _ (by rw [String.length_toList, even]), write_append, length_spelledBytes,
    String.length_toList]
  rfl

/-- What the memory holds once a code is written: a byte of the code, or what was there
    before where the code does not reach. -/
theorem put_eq_some_iff (memory : Memory) (address : Int) (code : String) (place : Int) (byte : Nat) :
    memory.put address code place = some byte ↔
      (∃ k : Nat, place = address + k ∧ (spelledBytes code.toList)[k]? = some byte) ∨
        ¬ (address ≤ place ∧ place < address + byteCount code) ∧ memory place = some byte := by
  have length : (spelledBytes code.toList).length = byteCount code := by
    rw [length_spelledBytes, String.length_toList, byteCount]
  simp only [put, write, length]
  by_cases inside : address ≤ place ∧ place < address + byteCount code
  · rw [if_pos inside]
    constructor
    · intro found
      exact .inl ⟨(place - address).toNat, by omega, found⟩
    · rintro (⟨k, rfl, found⟩ | ⟨outside, -⟩)
      · rw [← found]
        congr 1
        omega
      · exact absurd inside outside
  · rw [if_neg inside]
    constructor
    · intro found
      exact .inr ⟨inside, found⟩
    · rintro (⟨k, rfl, found⟩ | ⟨-, found⟩)
      · have short := (List.getElem?_eq_some_iff.mp found).1
        omega
      · exact found

end Memory

/-- Writes the codes of statements in order. -/
def putAll (memory : Memory) (owners : List Fragment) : Memory :=
  owners.foldl (fun memory owner => memory.put owner.address owner.code) memory

/-- Statements that lie apart keep their bytes. -/
theorem putAll_eq_some_iff {owners : List Fragment} (apart : owners.Pairwise Fragment.Before)
    (memory : Memory) (place : Int) (byte : Nat) :
    putAll memory owners place = some byte ↔
      (∃ owner ∈ owners, ∃ k : Nat, place = owner.address + k ∧ (spelledBytes owner.code.toList)[k]? = some byte) ∨
        (∀ owner ∈ owners, ¬ (owner.address ≤ place ∧ place < owner.finish)) ∧ memory place = some byte := by
  induction apart generalizing memory with
  | nil => simp [putAll]
  | @cons owner rest later _ ih =>
    have step : putAll memory (owner :: rest) = putAll (memory.put owner.address owner.code) rest := rfl
    have finish : owner.finish = owner.address + byteCount owner.code := rfl
    rw [step, ih, Memory.put_eq_some_iff, ← finish]
    constructor
    · rintro (⟨other, member, k, here⟩ | ⟨outside, ⟨k, here⟩ | ⟨before, held⟩⟩)
      · exact .inl ⟨other, List.mem_cons_of_mem owner member, k, here⟩
      · exact .inl ⟨owner, List.mem_cons_self, k, here⟩
      · refine .inr ⟨?_, held⟩
        simpa using ⟨fun low => by omega, fun other member low => by have := outside other member; omega⟩
    · rintro (⟨other, member, k, rfl, found⟩ | ⟨outside, held⟩)
      · rcases List.mem_cons.mp member with rfl | member
        · refine .inr ⟨?_, .inl ⟨k, rfl, found⟩⟩
          intro next isNext covered
          -- The place lies in front of the end of the first statement, and so of all others.
          have short := (List.getElem?_eq_some_iff.mp found).1
          rw [length_spelledBytes, String.length_toList] at short
          have behind := later next isNext
          simp only [Fragment.Before, finish, byteCount] at behind
          omega
        · exact .inl ⟨other, member, k, rfl, found⟩
      · exact .inr ⟨fun other member => outside other (List.mem_cons_of_mem owner member),
          .inr ⟨outside owner List.mem_cons_self, held⟩⟩

/-! ### Where shares load -/

namespace Share

/-- Shares that stand one behind the other from an address on stand where they are listed. -/
def LoadFrom : Int → List Share → Prop
  | _, [] => True
  | address, share :: rest => address = share.listed ∧ LoadFrom (address + share.size) rest

/-- The first share is the last of its statement, and the second the first of its own. -/
def Follows (first second : Share) : Prop :=
  first.offset + first.size = first.owner.size ∧ second.offset = 0

/-- Writes shares in order, each where it is listed. -/
def putShares (memory : Memory) (shares : List Share) : Memory :=
  shares.foldl (fun memory share => memory.put share.listed share.code) memory

theorem loadFrom_append (address : Int) (front back : List Share) :
    LoadFrom address (front ++ back) ↔ LoadFrom address front ∧ LoadFrom (address + total front) back := by
  induction front generalizing address with
  | nil => simp [LoadFrom]
  | cons share rest ih =>
    simp only [List.cons_append, LoadFrom, ih, total_cons, and_assoc]
    rw [show address + share.size + (total rest : Nat) = address + (share.size + total rest : Nat) by omega]

/-- `LoadFrom` says of every share that it loads where it is listed. -/
theorem loadFrom_iff_forall (address : Int) (shares : List Share) :
    LoadFrom address shares ↔
      ∀ before share after, shares = before ++ share :: after → address + total before = share.listed := by
  induction shares generalizing address with
  | nil => simp [LoadFrom]
  | cons first rest ih =>
    rw [LoadFrom, ih]
    constructor
    · rintro ⟨here, later⟩ before share after split
      cases before with
      | nil =>
        obtain ⟨rfl, -⟩ := List.cons.inj split
        simpa using here
      | cons other before =>
        obtain ⟨rfl, rest⟩ := List.cons.inj split
        rw [← later before share after rest, total_cons]
        omega
    · intro all
      refine ⟨by simpa using all [] first rest rfl, ?_⟩
      rintro before share after rfl
      rw [← all (first :: before) share after rfl, total_cons]
      omega

/-- Shares that follow one another load as listed exactly if their statements leave no gap. -/
theorem loadFrom_iff {first : Share} {rest : List Share} (orderly : (first :: rest).IsChain Follows) :
    LoadFrom first.listed (first :: rest) ↔
      (first :: rest).IsChain fun first second => second.owner.address = first.owner.finish := by
  induction rest generalizing first with
  | nil => simp [LoadFrom]
  | cons second rest ih =>
    obtain ⟨⟨ends, begins⟩, later⟩ := List.isChain_cons_cons.mp orderly
    have behind : first.listed + first.size = first.owner.finish := by
      simp only [listed, Fragment.finish]
      omega
    have start : second.listed = second.owner.address := by
      simp [listed, begins]
    rw [LoadFrom, List.isChain_cons_cons, behind, ← ih later]
    simp only [true_and]
    constructor
    · intro loads
      have here : first.owner.finish = second.listed := loads.1
      exact ⟨by rw [here, start], here ▸ loads⟩
    · rintro ⟨abuts, loads⟩
      rw [← abuts, ← start]
      exact loads

theorem loadFrom_sequence (owner : Fragment) (offset : Nat) (codes : List String) :
    LoadFrom (owner.address + offset) (sequence owner offset codes) := by
  induction codes generalizing offset with
  | nil => trivial
  | cons code rest ih =>
    refine ⟨rfl, ?_⟩
    have later := ih (offset + byteCount code)
    rwa [Int.natCast_add, ← Int.add_assoc] at later

/-- What loads as listed may be written as one code. -/
theorem put_join {address : Int} {shares : List Share} (loads : LoadFrom address shares)
    (even : ∀ share ∈ shares, share.code.length % 2 = 0) (memory : Memory) :
    memory.put address (String.join (shares.map code)) = putShares memory shares := by
  induction shares generalizing address memory with
  | nil =>
    funext place
    simp [Memory.put, Memory.write, spelledBytes, putShares]
  | cons share rest ih =>
    obtain ⟨here, later⟩ := loads
    rw [List.map_cons, String.join_cons, Memory.put_append _ _ _ _ (even share List.mem_cons_self), here]
    rw [here] at later
    exact ih later (fun other member => even other (List.mem_cons_of_mem share member)) _

theorem total_sequence (owner : Fragment) (offset : Nat) (codes : List String)
    (even : ∀ code ∈ codes, code.length % 2 = 0) :
    total (sequence owner offset codes) = byteCount (String.join codes) := by
  induction codes generalizing offset with
  | nil => rfl
  | cons code rest ih =>
    have here := even code List.mem_cons_self
    simp only [sequence, total_cons, size, ih _ fun other member => even other (List.mem_cons_of_mem code member)]
    simp only [String.join_cons, byteCount, String.length_append]
    omega

/-- The shares of statements that leave no gap load as listed. -/
theorem Divide.loadFrom {owners : List Fragment} {shares : List Share} (divide : Divide owners shares)
    (even : ∀ share ∈ shares, share.code.length % 2 = 0) {address : Int}
    (first : ∀ owner ∈ owners.head?, owner.address = address)
    (contiguous : owners.IsChain fun first second => second.address = first.finish) : LoadFrom address shares := by
  induction divide generalizing address with
  | nil => trivial
  | @cons owner owners codes shares joined _ _ ih =>
    have evenCodes : ∀ code ∈ codes, code.length % 2 = 0 := by
      intro code member
      rw [← map_code_sequence owner 0 codes] at member
      obtain ⟨share, isShare, rfl⟩ := List.mem_map.mp member
      exact even share (List.mem_append_left _ isShare)
    have here : owner.address = address := first owner rfl
    have behind : address + (total (sequence owner 0 codes) : Nat) = owner.finish := by
      rw [total_sequence owner 0 codes evenCodes, joined, ← here]
      rfl
    rw [List.isChain_cons] at contiguous
    rw [loadFrom_append, behind]
    refine ⟨?_, ih (fun share member => even share (List.mem_append_right _ member)) contiguous.1 contiguous.2⟩
    simpa [here] using loadFrom_sequence owner 0 codes

/-- Writing the shares writes the codes that they divide. -/
theorem Divide.putShares_eq {owners : List Fragment} {shares : List Share} (divide : Divide owners shares)
    (even : ∀ share ∈ shares, share.code.length % 2 = 0) (memory : Memory) :
    putShares memory shares = putAll memory owners := by
  induction divide generalizing memory with
  | nil => rfl
  | @cons owner owners codes shares joined _ _ ih =>
    have whole := put_join (loadFrom_sequence owner 0 codes)
      (fun share member => even share (List.mem_append_left _ member)) memory
    rw [map_code_sequence, joined] at whole
    have later := ih (fun share member => even share (List.mem_append_right _ member)) (putShares memory (sequence owner 0 codes))
    calc putShares memory (sequence owner 0 codes ++ shares)
      _ = putShares (putShares memory (sequence owner 0 codes)) shares := List.foldl_append
      _ = putAll (memory.put owner.address owner.code) owners := by rw [later, ← whole, Int.natCast_zero, Int.add_zero]
      _ = putAll memory (owner :: owners) := rfl

end Share

namespace Packing

section
variable {capacity : Nat} {fragments : List Fragment} {portions : List Portion}

/-- Within a record a share that another one follows is the last of its statement, and
    every share but the first is the first of its statement. -/
theorem Fills.orderly (fills : Fills capacity none fragments portions) :
    ∀ portion ∈ portions, portion.shares.IsChain Share.Follows := by
  -- The last share of the open portion always ends its statement.
  refine fills.invariant (fun _ => True)
    (fun portion => portion.shares.IsChain Share.Follows ∧
      ∀ last ∈ portion.shares.getLast?, last.offset + last.size = last.owner.size)
    (fun _ isOpen => isOpen.1) ?_ ?_ (fun _ _ => trivial) nofun
  · rintro portion fragment _ _ ⟨chain, ends⟩
    rw [Portion.shares_add]
    refine ⟨List.isChain_append.mpr ⟨chain, .singleton _, ?_⟩, ?_⟩
    · rintro last isLast _ ⟨⟩
      exact ⟨ends last isLast, rfl⟩
    · intro last isLast
      rw [List.getLast?_concat] at isLast
      obtain rfl := Option.some.inj isLast
      exact Nat.zero_add _
  · intro fragment full final _ pieces
    refine ⟨fun _ _ => .singleton _, .singleton _, ?_⟩
    intro last isLast
    obtain rfl : final = last := Option.some.inj isLast
    rw [pieces.owner_eq (List.mem_append_right full List.mem_cons_self)]
    exact pieces.ends_size

/-- Codes of whole bytes are cut into whole bytes. -/
theorem Fills.even (fills : Fills capacity none fragments portions)
    (evenCodes : ∀ fragment ∈ fragments, fragment.code.length % 2 = 0) :
    ∀ portion ∈ portions, ∀ share ∈ portion.shares, share.code.length % 2 = 0 := by
  refine fills.invariant _ (fun portion => ∀ share ∈ portion.shares, share.code.length % 2 = 0) (fun _ even => even)
    ?_ ?_ evenCodes nofun
  · intro portion fragment whole _ even share member
    rw [Portion.shares_add] at member
    rcases List.mem_append.mp member with front | isLast
    · exact even share front
    · rw [List.mem_singleton.mp isLast]
      exact whole
  · intro fragment full final whole pieces
    have ends := pieces.ends
    simp only [Portion.shares_single, List.mem_singleton, forall_eq]
    refine ⟨fun share member => ?_, by omega⟩
    rw [pieces.full share member]
    omega

end

end Packing

/-! ### The image of an object program -/

theorem load_portions {portions : List Portion} (loads : ∀ portion ∈ portions, Share.LoadFrom portion.record.start portion.shares)
    (even : ∀ portion ∈ portions, ∀ share ∈ portion.shares, share.code.length % 2 = 0) (memory : Memory) :
    (portions.map Portion.record).foldl Memory.load memory = Share.putShares memory (portions.flatMap Portion.shares) := by
  induction portions generalizing memory with
  | nil => rfl
  | cons portion rest ih =>
    have here := Share.put_join (loads portion List.mem_cons_self) (even portion List.mem_cons_self) memory
    have later := ih (fun other member => loads other (List.mem_cons_of_mem portion member))
      (fun other member => even other (List.mem_cons_of_mem portion member)) (Share.putShares memory portion.shares)
    calc ((portion :: rest).map Portion.record).foldl Memory.load memory
      _ = (rest.map Portion.record).foldl Memory.load (memory.load portion.record) := rfl
      _ = Share.putShares (Share.putShares memory portion.shares) (rest.flatMap Portion.shares) := by
        rw [← later, ← here]
        rfl
      _ = Share.putShares memory ((portion :: rest).flatMap Portion.shares) := by
        rw [List.flatMap_cons]
        exact List.foldl_append.symm

theorem loads_of_loadFrom {portions : List Portion} {address : Int}
    (loads : Share.LoadFrom address (portions.flatMap Portion.shares)) :
    ∀ portion ∈ portions, Share.LoadFrom portion.record.start portion.shares := by
  induction portions generalizing address with
  | nil => nofun
  | cons portion rest ih =>
    rw [List.flatMap_cons, Share.loadFrom_append] at loads
    intro other member
    rcases List.mem_cons.mp member with rfl | later
    · have start : address = other.record.start := loads.1.1
      exact start ▸ loads.1
    · exact ih loads.2 other later

/-- Records of statements that leave no gap load to the memory with every code at its address. -/
theorem loadedImage_of_contiguous {owners : List Fragment} {texts : List TextRecord} {portions : List Portion}
    (attribution : Attribution owners texts portions)
    (even : ∀ portion ∈ portions, ∀ share ∈ portion.shares, share.code.length % 2 = 0)
    (contiguous : owners.IsChain fun first second => second.address = first.finish) :
    loadedImage texts = putAll .blank owners := by
  have evenShares : ∀ share ∈ portions.flatMap Portion.shares, share.code.length % 2 = 0 := by
    intro share member
    obtain ⟨portion, isPortion, isShare⟩ := List.mem_flatMap.mp member
    exact even portion isPortion share isShare
  have loads : Share.LoadFrom ((owners.head?.map Fragment.address).getD 0) (portions.flatMap Portion.shares) := by
    refine attribution.divide.loadFrom evenShares ?_ contiguous
    intro owner isFirst
    rw [Option.mem_def.mp isFirst]
    rfl
  rw [loadedImage, attribution.records, load_portions (loads_of_loadFrom loads) even,
    attribution.divide.putShares_eq evenShares]

/-- Statements that leave no gap lie apart. -/
theorem apart_of_contiguous {owners : List Fragment}
    (contiguous : owners.IsChain fun first second => second.address = first.finish) :
    owners.Pairwise Fragment.Before :=
  List.isChain_iff_pairwise.mp (contiguous.imp fun _ _ abuts => Int.le_of_eq abuts.symm)

/-- How the text records of an encoding load. -/
structure LoadingLaw (encoding : Encoding) : Prop where
  /-- Every fragment belongs to the code of one line. -/
  attributed : ∃! portions,
    Attribution (encoding.listing.filterMap ListingLine.fragment?) encoding.program.texts portions
  /-- All fragments load where they are listed exactly if, within every record, the line
      of each fragment starts where the code of the line of the fragment before it ends. -/
  asListed : ∀ portions, Attribution (encoding.listing.filterMap ListingLine.fragment?) encoding.program.texts portions →
    ((∀ portion ∈ portions, ∀ before share after, portion.shares = before ++ share :: after →
        portion.record.start + Share.total before = share.listed) ↔
      ∀ portion ∈ portions, ∀ before first second after, portion.shares = before ++ first :: second :: after →
        second.owner.address = first.owner.finish)
  /-- If the lines with code leave no gap, the memory holds the bytes of every line from
      the address of the line on, and nothing else. -/
  image : ((encoding.listing.filterMap ListingLine.fragment?).IsChain fun first second => second.address = first.finish) →
    ∀ place byte, loadedImage encoding.program.texts place = some byte ↔
      ∃ line ∈ encoding.listing, ∃ (address : Int) (k : Nat), line.record.address = some address ∧
        place = address + k ∧ (spelledBytes line.code.toList)[k]? = some byte

section
variable {settings : Settings} {table : OpcodeTable} {statements : List Statement} {file : String} {warnUnknown : Bool}

theorem program_fragments_even (complete : (layOut settings table statements).aborted = false) :
    ∀ fragment ∈ (encode (programEncoder settings table statements file warnUnknown)
        (layOut settings table statements).records).listing.filterMap ListingLine.fragment?,
      fragment.code.length % 2 = 0 := by
  intro fragment member
  obtain ⟨line, listed, found⟩ := List.mem_filterMap.mp member
  obtain ⟨bearing, -, code⟩ := ListingLine.fragment?_eq_some_iff.mp found
  obtain ⟨written, cases⟩ := line_code_cases complete listed
  rw [written] at bearing code
  obtain ⟨bytes, -, spells, -, -⟩ := cases.fits bearing
  rw [code, spells.length]
  omega

end

/-- The bytes of the fragments are those of the lines that have an address. -/
theorem exists_fragment_iff (listing : List ListingLine) (place : Int) (byte : Nat) :
    (∃ owner ∈ listing.filterMap ListingLine.fragment?, ∃ k : Nat, place = owner.address + k ∧
        (spelledBytes owner.code.toList)[k]? = some byte) ↔
      ∃ line ∈ listing, ∃ (address : Int) (k : Nat), line.record.address = some address ∧ place = address + k ∧
        (spelledBytes line.code.toList)[k]? = some byte := by
  constructor
  · rintro ⟨owner, member, k, here, found⟩
    obtain ⟨line, listed, isFragment⟩ := List.mem_filterMap.mp member
    obtain ⟨-, addressed, code⟩ := ListingLine.fragment?_eq_some_iff.mp isFragment
    exact ⟨line, listed, owner.address, k, addressed, here, code ▸ found⟩
  · rintro ⟨line, listed, address, k, addressed, here, found⟩
    have bearing : line.code ≠ "" := by
      intro empty
      simp [empty, spelledBytes] at found
    have isFragment : line.fragment? = some ⟨address, line.code⟩ :=
      ListingLine.fragment?_eq_some_iff.mpr ⟨bearing, addressed, rfl⟩
    exact ⟨_, List.mem_filterMap.mpr ⟨line, listed, isFragment⟩, k, here, found⟩

/-- Where the object program of a program that was laid out to its end loads. -/
theorem program_loadingLaw (settings : Settings) (table : OpcodeTable) (statements : List Statement) (file : String)
    (warnUnknown : Bool) (complete : (layOut settings table statements).aborted = false) :
    LoadingLaw (encode (programEncoder settings table statements file warnUnknown)
      (layOut settings table statements).records) := by
  obtain ⟨portions, fills, attribution⟩ := encode_fills (programEncoder settings table statements file warnUnknown)
    (layOut settings table statements).records
  refine ⟨⟨portions, attribution, fun other isOther => isOther.unique attribution⟩, ?_, ?_⟩
  · intro other isOther
    obtain rfl := isOther.unique attribution
    simp only [← Share.loadFrom_iff_forall]
    refine forall₂_congr fun portion member => (Share.loadFrom_iff (fills.orderly portion member)).trans ?_
    rw [List.isChain_iff_forall_rel_of_append_cons_cons]
    exact ⟨fun abut before first second after split => abut split, fun abut _ _ _ _ split => abut _ _ _ _ split⟩
  · intro contiguous place byte
    have image := loadedImage_of_contiguous attribution (fills.even (program_fragments_even complete)) contiguous
    rw [image, putAll_eq_some_iff (apart_of_contiguous contiguous), exists_fragment_iff]
    simp [Memory.blank]

/-- A program without gaps and with a constant that is cut. -/
private def unbroken : List Statement :=
  [{ line := 1, text := " START 10", opcode := "START", operand := some "10" },
    { line := 2, text := " WORD 1", opcode := "WORD", operand := some "1" },
    { line := 3, text := " BYTE X'0102030405'", opcode := "BYTE", operand := some "X'0102030405'" },
    { line := 4, text := " LDA LAST", opcode := "LDA", operand := some "LAST" },
    { line := 5, text := " RESW 0", opcode := "RESW", operand := some "0" },
    { line := 6, text := "LAST WORD 2", label := some "LAST", opcode := "WORD", operand := some "2" }]

theorem program_loadingLaw_unbroken :
    (encode (programEncoder { capacity := 4 } ⟨⟨[("LDA", "0c")]⟩⟩ unbroken "<input>" false)
      (layOut { capacity := 4 } ⟨⟨[("LDA", "0c")]⟩⟩ unbroken).records).program.texts =
        [⟨16, ["000001"]⟩, ⟨19, ["01020304"]⟩, ⟨23, ["05", "0C001B"]⟩, ⟨27, ["000002"]⟩] ∧
    LoadingLaw (encode (programEncoder { capacity := 4 } ⟨⟨[("LDA", "0c")]⟩⟩ unbroken "<input>" false)
      (layOut { capacity := 4 } ⟨⟨[("LDA", "0c")]⟩⟩ unbroken).records) ∧
    loadedImage (encode (programEncoder { capacity := 4 } ⟨⟨[("LDA", "0c")]⟩⟩ unbroken "<input>" false)
      (layOut { capacity := 4 } ⟨⟨[("LDA", "0c")]⟩⟩ unbroken).records).program.texts 26 = some 0x1B := by
  have law := program_loadingLaw { capacity := 4 } ⟨⟨[("LDA", "0c")]⟩⟩ unbroken "<input>" false (by decide +kernel)
  refine ⟨by decide +kernel, law, (law.image (by decide +kernel) 26 0x1B).mpr ?_⟩
  exact ⟨⟨⟨some 24, "LDA", none, some "LAST", 4, some " LDA LAST"⟩, "0C001B"⟩, by decide +kernel, 24, 2, rfl, rfl,
    by decide +kernel⟩

end TwoPass
