import TwoPass.Packing

/-!
The statements whose code text records hold. A record is that of a `Portion`: shares of
statements, the first of which says where it starts. An `Attribution` names the statement
of every fragment, so that the shares of each statement are its code, and there is at most
one of them (`Attribution.unique`).
-/
namespace TwoPass

/-- The code of one statement ends in front of that of another. -/
def Fragment.Before (first second : Fragment) : Prop :=
  first.finish ≤ second.address

instance : Trans Fragment.Before Fragment.Before Fragment.Before where
  trans {first second third} front back := by
    simp only [Fragment.Before, Fragment.finish] at front back ⊢
    omega

/-- A part of the code of a statement, as one fragment of a text record. -/
structure Share where
  /-- The statement's code with its address. -/
  owner : Fragment
  /-- The number of the statement's bytes in earlier shares. -/
  offset : Nat
  code : String
  deriving DecidableEq, Repr

namespace Share

def size (share : Share) : Nat :=
  byteCount share.code

/-- Where the statement has the first byte of the share. -/
def listed (share : Share) : Int :=
  share.owner.address + share.offset

/-- The code of a statement as a single share. -/
def whole (owner : Fragment) : Share :=
  ⟨owner, 0, owner.code⟩

/-- The shares that consecutive parts of a statement's code make, behind `offset` bytes of it. -/
def sequence (owner : Fragment) (offset : Nat) : List String → List Share
  | [] => []
  | code :: rest => ⟨owner, offset, code⟩ :: sequence owner (offset + byteCount code) rest

/-- The number of bytes in shares. -/
def total (shares : List Share) : Nat :=
  shares.foldr (·.size + ·) 0

/-- Shares divide the codes of statements: those of each statement follow one another,
    none is empty, and together they are its code. -/
inductive Divide : List Fragment → List Share → Prop
  | nil : Divide [] []
  | cons {owner : Fragment} {owners : List Fragment} {codes : List String} {shares : List Share}
      (joined : String.join codes = owner.code) (nonempty : "" ∉ codes) (others : Divide owners shares) :
      Divide (owner :: owners) (sequence owner 0 codes ++ shares)

@[simp] theorem total_nil : total [] = 0 := rfl

@[simp] theorem total_cons (share : Share) (rest : List Share) : total (share :: rest) = share.size + total rest := rfl

@[simp] theorem total_append (front back : List Share) : total (front ++ back) = total front + total back := by
  induction front with
  | nil => simp
  | cons share rest ih => simp only [List.cons_append, total_cons, ih, Nat.add_assoc]

theorem owner_of_mem_sequence {owner : Fragment} {offset : Nat} {codes : List String} {share : Share}
    (member : share ∈ sequence owner offset codes) : share.owner = owner := by
  induction codes generalizing offset with
  | nil => contradiction
  | cons code rest ih =>
    rcases List.mem_cons.mp member with rfl | later
    · rfl
    · exact ih later

@[simp] theorem map_code_sequence (owner : Fragment) (offset : Nat) (codes : List String) :
    (sequence owner offset codes).map code = codes := by
  induction codes generalizing offset with
  | nil => rfl
  | cons code rest ih => simp only [sequence, List.map_cons, ih]

theorem sequence_append (owner : Fragment) (offset : Nat) (front back : List String) :
    sequence owner offset (front ++ back) =
      sequence owner offset front ++ sequence owner (offset + total (sequence owner offset front)) back := by
  induction front generalizing offset with
  | nil => rfl
  | cons code rest ih =>
    simp only [List.cons_append, sequence, ih, total_cons, size, Nat.add_assoc]

/-- Nothing of the codes is lost, and nothing is there twice. -/
theorem Divide.join {owners : List Fragment} {shares : List Share} (divide : Divide owners shares) :
    String.join (shares.map code) = String.join (owners.map Fragment.code) := by
  induction divide with
  | nil => rfl
  | cons joined _ _ ih =>
    rw [List.map_append, map_code_sequence, String.join_append, joined, ih, List.map_cons, String.join_cons]

end Share

/-- The shares in one text record, of which there is at least one. -/
structure Portion where
  opening : Share
  others : List Share := []
  deriving DecidableEq, Repr

namespace Portion

def shares (portion : Portion) : List Share :=
  portion.opening :: portion.others

/-- The text record: it starts where the first of its statements has the first byte that
    is not in earlier records. -/
def record (portion : Portion) : TextRecord :=
  ⟨portion.opening.listed, portion.shares.map Share.code⟩

def size (portion : Portion) : Nat :=
  Share.total portion.shares

def add (portion : Portion) (share : Share) : Portion :=
  { portion with others := portion.others ++ [share] }

/-- The record of a single share. -/
def single (share : Share) : Portion :=
  { opening := share }

@[simp] theorem byteLength_record (portion : Portion) : portion.record.byteLength = portion.size :=
  List.foldr_map

@[simp] theorem shares_single (share : Share) : (single share).shares = [share] := rfl

@[simp] theorem shares_add (portion : Portion) (share : Share) : (portion.add share).shares = portion.shares ++ [share] :=
  rfl

theorem record_add (portion : Portion) (share : Share) :
    (portion.add share).record = { portion.record with fragments := portion.record.fragments ++ [share.code] } := by
  simp only [record, shares_add, List.map_append]
  rfl

@[simp] theorem size_single (share : Share) : (single share).size = share.size := rfl

@[simp] theorem size_add (portion : Portion) (share : Share) : (portion.add share).size = portion.size + share.size := by
  simp [size]

/-- The code of the records is that of the shares. -/
theorem join_records (portions : List Portion) :
    String.join ((portions.map record).map TextRecord.code) =
      String.join ((portions.flatMap Portion.shares).map Share.code) := by
  induction portions with
  | nil => rfl
  | cons portion rest ih =>
    rw [List.map_cons, List.map_cons, String.join_cons, ih, List.flatMap_cons, List.map_append, String.join_append]
    rfl

theorem flatMap_shares_single (shares : List Share) : (shares.map single).flatMap Portion.shares = shares := by
  simp [List.flatMap_map]

end Portion

/-- To which statements the fragments of text records belong: every record is that of a
    portion, and the shares of all portions divide the codes of the statements. -/
structure Attribution (owners : List Fragment) (texts : List TextRecord) (portions : List Portion) : Prop where
  records : texts = portions.map Portion.record
  divide : Share.Divide owners (portions.flatMap Portion.shares)

/-- Parts that are not empty are told from what follows them by what they join to. -/
private theorem eq_of_join_eq {first second behind other : List String} (same : first ++ behind = second ++ other)
    (joined : String.join first = String.join second) (firstNonempty : "" ∉ first) (secondNonempty : "" ∉ second) :
    first = second := by
  induction first generalizing second with
  | nil =>
    cases second with
    | nil => rfl
    | cons code rest =>
      rw [String.join_nil, String.join_cons] at joined
      have empty : code = "" := (String.append_eq_empty_iff.mp joined.symm).1
      exact absurd (empty ▸ List.mem_cons_self) secondNonempty
  | cons code rest ih =>
    cases second with
    | nil =>
      rw [String.join_nil, String.join_cons] at joined
      have empty : code = "" := (String.append_eq_empty_iff.mp joined).1
      exact absurd (empty ▸ List.mem_cons_self) firstNonempty
    | cons code rest =>
      rw [List.cons_append, List.cons_append, List.cons.injEq] at same
      obtain ⟨rfl, same⟩ := same
      rw [String.join_cons, String.join_cons, String.append_right_inj] at joined
      rw [ih same joined (fun empty => firstNonempty (List.mem_cons_of_mem _ empty))
        (fun empty => secondNonempty (List.mem_cons_of_mem _ empty))]

theorem Share.Divide.unique {owners : List Fragment} {shares others : List Share} (divide : Divide owners shares)
    (otherDivide : Divide owners others) (codes : shares.map code = others.map code) : shares = others := by
  induction divide generalizing others with
  | nil =>
    cases otherDivide
    rfl
  | cons joined nonempty _ ih =>
    cases otherDivide with
    | cons otherJoined otherNonempty otherDivide =>
      simp only [List.map_append, map_code_sequence] at codes
      have same := eq_of_join_eq codes (joined.trans otherJoined.symm) nonempty otherNonempty
      subst same
      rw [ih otherDivide (List.append_cancel_left codes)]

/-- The records say how the shares are spread over the portions. -/
private theorem portions_eq {portions others : List Portion} (records : portions.map Portion.record = others.map Portion.record)
    (shares : portions.flatMap Portion.shares = others.flatMap Portion.shares) : portions = others := by
  induction portions generalizing others with
  | nil => exact (List.map_eq_nil_iff.mp records.symm).symm
  | cons portion rest ih =>
    cases others with
    | nil => contradiction
    | cons other otherRest =>
      rw [List.map_cons, List.map_cons, List.cons.injEq] at records
      rw [List.flatMap_cons, List.flatMap_cons] at shares
      have length : portion.shares.length = other.shares.length := by
        have codes := congrArg (fun record => record.fragments.length) records.1
        simpa [Portion.record] using codes
      obtain ⟨here, later⟩ := List.append_inj shares length
      obtain ⟨opening, others⟩ := List.cons.inj here
      have same : portion = other := by
        cases portion
        cases other
        simp_all
      rw [same, ih records.2 later]

/-- There is at most one way to attribute the fragments of text records to statements. -/
theorem Attribution.unique {owners : List Fragment} {texts : List TextRecord} {portions others : List Portion}
    (attribution : Attribution owners texts portions) (other : Attribution owners texts others) : portions = others := by
  have records := attribution.records.symm.trans other.records
  apply portions_eq records
  apply attribution.divide.unique other.divide
  have codes : ∀ portions : List Portion, (portions.flatMap Portion.shares).map Share.code =
      (portions.map Portion.record).flatMap TextRecord.fragments := by
    intro portions
    rw [List.map_flatMap, List.flatMap_map]
    rfl
  rw [codes, codes, records]

end TwoPass
