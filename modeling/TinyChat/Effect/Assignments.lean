import Mathlib.Data.List.Pairwise

/-! Checked assignments to the fields of a record, one after the other. Each computes a
value from a source and stores it; one that fails leaves the record as those before it
have made it. -/
namespace TinyChat.Effect

universe u v w

/-- A field, with what it holds if anything was ever stored in it. -/
structure Field (Record : Type u) (Value : Type v) where
  get : Record → Option Value
  store : Value → Record → Record
  get_store : ∀ value record, get (store value record) = some value

attribute [simp] Field.get_store

/-- A field of a part of a record. -/
def Field.within {Record : Type u} {Part : Type w} {Value : Type v} (part : Record → Part)
    (update : Part → Record → Record) (part_update : ∀ inner record, part (update inner record) = inner)
    (field : Field Part Value) : Field Record Value where
  get record := field.get (part record)
  store value record := update (field.store value (part record)) record
  get_store value record := by rw [part_update, field.get_store]

structure Assignment (Source Record Fault : Type u) where
  Value : Type u
  value : Source → Except Fault Value
  field : Field Record Value

section Runs

variable {Source Record Fault : Type u}

namespace Assignment

/-- The source has a value for the field. -/
def Accepts (source : Source) (assignment : Assignment Source Record Fault) : Prop :=
  ∃ value, assignment.value source = .ok value

/-- The field holds the value that the source has for it. -/
def Holds (source : Source) (record : Record) (assignment : Assignment Source Record Fault) : Prop :=
  ∃ value, assignment.value source = .ok value ∧ assignment.field.get record = some value

/-- What the second assignment stores is not in the field of the first. -/
def Apart (first second : Assignment Source Record Fault) : Prop :=
  ∀ value record, first.field.get (second.field.store value record) = first.field.get record

theorem Holds.accepts {source : Source} {record : Record} {assignment : Assignment Source Record Fault}
    (holds : assignment.Holds source record) : assignment.Accepts source := by
  obtain ⟨value, found, _⟩ := holds
  exact ⟨value, found⟩

end Assignment

/-- Take the assignments in order, up to the first that fails. -/
def assign (source : Source) :
    List (Assignment Source Record Fault) → Record → Record × Except Fault Unit
  | [], record => (record, .ok ⟨⟩)
  | assignment :: rest, record =>
    match assignment.value source with
    | .ok value => assign source rest (assignment.field.store value record)
    | .error fault => (record, .error fault)

variable {source : Source} {assignment : Assignment Source Record Fault}
variable {assignments : List (Assignment Source Record Fault)} {record : Record} {fault : Fault}

/-- Either all assignments are taken or one of them has the fault. -/
theorem assign_cases (source : Source) (assignments : List (Assignment Source Record Fault))
    (record : Record) :
    ((assign source assignments record).2 = .ok ⟨⟩ ∧ ∀ assignment ∈ assignments, assignment.Accepts source) ∨
      ∃ assignment ∈ assignments, ∃ fault, assignment.value source = .error fault ∧
        (assign source assignments record).2 = .error fault := by
  induction assignments generalizing record with
  | nil => exact .inl ⟨rfl, by simp⟩
  | cons first rest ih =>
    cases found : first.value source with
    | error fault => exact .inr ⟨first, List.mem_cons_self, fault, found, by simp [assign, found]⟩
    | ok value =>
      simp only [assign, found]
      rcases ih (first.field.store value record) with ⟨done, all⟩ | ⟨other, member, fault, failed, same⟩
      · exact .inl ⟨done, List.forall_mem_cons.mpr ⟨⟨value, found⟩, all⟩⟩
      · exact .inr ⟨other, List.mem_cons_of_mem _ member, fault, failed, same⟩

/-- Assignments to other fields keep a field, also when one of them fails. -/
theorem get_assign_of_apart (apart : ∀ other ∈ assignments, assignment.Apart other) :
    assignment.field.get (assign source assignments record).1 = assignment.field.get record := by
  induction assignments generalizing record with
  | nil => rfl
  | cons first rest ih =>
    obtain ⟨here, later⟩ := List.forall_mem_cons.mp apart
    cases found : first.value source with
    | error fault => simp [assign, found]
    | ok value =>
      simp only [assign, found]
      rw [ih later, here]

/-- When all assignments are taken, each field holds its value, whatever it held before. -/
theorem holds_of_assign (apart : assignments.Pairwise Assignment.Apart)
    (accepted : ∀ assignment ∈ assignments, assignment.Accepts source) :
    ∀ assignment ∈ assignments, assignment.Holds source (assign source assignments record).1 := by
  induction assignments generalizing record with
  | nil => simp
  | cons first rest ih =>
    obtain ⟨keeps, later⟩ := List.pairwise_cons.mp apart
    obtain ⟨⟨value, found⟩, others⟩ := List.forall_mem_cons.mp accepted
    simp only [assign, found]
    refine List.forall_mem_cons.mpr ⟨⟨value, found, ?_⟩, ih later others⟩
    rw [get_assign_of_apart keeps, first.field.get_store]

end Runs

end TinyChat.Effect
