import TinyChat.Text.Codes
import Mathlib.Data.Set.Function
import Mathlib.Data.Sym.Sym2

/-! `RequestHandler::generate_private_room_uuid` and `bytes_to_hex`. A `std::string` is its
bytes, which it is also compared by. -/
namespace TinyChat.Core

open TinyChat.Text

abbrev Bytes := List UInt8

/-- `std::hex` on two places, filled up with zeros. -/
def hexByte (byte : UInt8) : List Char := List.leftpad 2 '0' (Nat.toDigits 16 byte.toNat)

def bytesToHex (bytes : List UInt8) : String := String.ofList (bytes.flatMap hexByte)

/-- The byte of `':'`. -/
def colon : UInt8 := 58

/-- The two users in the order of their names. -/
def inOrder (u1 u2 : Bytes) : Bytes × Bytes := if u1 > u2 then (u2, u1) else (u1, u2)

def combinedKey (u1 u2 : Bytes) : Bytes := separated colon (inOrder u1 u2)

/-- With `crypto_generichash` on 20 bytes and without a key. -/
def generatePrivateRoomUuid (hash : Bytes → Vector UInt8 20) (u1 u2 : Bytes) : String :=
  "pr-" ++ bytesToHex (hash (combinedKey u1 u2)).toList

section Hex

variable {byte : UInt8}

theorem hexByte_eq :
    hexByte byte = [Nat.digitChar (byte.toNat / 16), Nat.digitChar (byte.toNat % 16)] := by
  have bound : byte.toNat < 256 := byte.toNat_lt_size
  rcases Nat.lt_or_ge byte.toNat 16 with small | large
  · have high : byte.toNat / 16 = 0 := by omega
    have low : byte.toNat % 16 = byte.toNat := by omega
    rw [hexByte, Nat.toDigits_of_lt_base small, high, low]
    rfl
  · have high : byte.toNat / 16 < 16 := by omega
    rw [hexByte, Nat.toDigits_of_base_le (by decide) large, Nat.toDigits_of_lt_base high]
    rfl

theorem digitChar_injective {first second : Nat} (below : first < 16) (belowToo : second < 16)
    (same : Nat.digitChar first = Nat.digitChar second) : first = second := by
  have all : ∀ first second : Fin 16,
      Nat.digitChar first.val = Nat.digitChar second.val → first = second := by decide
  exact congrArg Fin.val (all ⟨first, below⟩ ⟨second, belowToo⟩ same)

theorem hexByte_injective : Function.Injective hexByte := by
  intro first second same
  rw [hexByte_eq, hexByte_eq] at same
  obtain ⟨high, low⟩ := List.cons.inj same
  have firstBound : first.toNat < 256 := first.toNat_lt_size
  have secondBound : second.toNat < 256 := second.toNat_lt_size
  have highs := digitChar_injective (by omega) (by omega) high
  have lows := digitChar_injective (by omega) (by omega) (List.cons.inj low).1
  exact UInt8.toNat_inj.mp (by omega)

theorem bytesToHex_injective : Function.Injective bytesToHex := by
  intro first second same
  have lengths (byte : UInt8) : (hexByte byte).length = 2 := by
    rw [hexByte_eq]
    rfl
  exact flatMap_injective_of_length lengths (by decide) hexByte_injective
    (String.ofList_injective same)

end Hex

section Keys

variable {a b c d : Bytes} {hash : Bytes → Vector UInt8 20}

theorem inOrder_comm : inOrder a b = inOrder b a := by
  unfold inOrder
  by_cases above : a > b
  · rw [if_pos above, if_neg (List.lt_asymm above)]
  · rw [if_neg above]
    by_cases below : b > a
    · rw [if_pos below]
    · obtain rfl : a = b := List.le_antisymm (List.not_lt.mp above) (List.not_lt.mp below)
      rw [if_neg above]

theorem inOrder_eq_or : inOrder a b = (a, b) ∨ inOrder a b = (b, a) := by
  unfold inOrder
  split
  · exact .inr rfl
  · exact .inl rfl

/-- The order forgets who came first and nothing else. -/
theorem inOrder_eq_iff : inOrder a b = inOrder c d ↔ s(a, b) = s(c, d) := by
  rw [Sym2.eq_iff]
  constructor
  · intro same
    rcases @inOrder_eq_or a b with first | first <;> rcases @inOrder_eq_or c d with second | second <;>
      rw [first, second] at same <;> cases same <;> simp
  · rintro (⟨rfl, rfl⟩ | ⟨rfl, rfl⟩)
    · rfl
    · exact inOrder_comm

/-- Where the hash has no collision, equal ids are equal keys. -/
theorem uuid_eq_iff (distinct : Set.InjOn hash {combinedKey a b, combinedKey c d}) :
    generatePrivateRoomUuid hash a b = generatePrivateRoomUuid hash c d ↔
      combinedKey a b = combinedKey c d := by
  constructor
  · intro same
    have hex := bytesToHex_injective (String.append_right_inj _ |>.mp same)
    exact distinct (by simp) (by simp) (Vector.toList_inj.mp hex)
  · intro same
    rw [generatePrivateRoomUuid, same, generatePrivateRoomUuid]

theorem generatePrivateRoomUuid_comm :
    generatePrivateRoomUuid hash a b = generatePrivateRoomUuid hash b a := by
  rw [generatePrivateRoomUuid, combinedKey, inOrder_comm, generatePrivateRoomUuid, combinedKey]

theorem combinedKey_exact_iff : (combinedKey a b = combinedKey c d ↔ s(a, b) = s(c, d)) ↔
    ¬ (Shifted colon (inOrder a b) (inOrder c d) ∨ Shifted colon (inOrder c d) (inOrder a b)) := by
  rw [combinedKey, combinedKey, separated_eq_iff, ← inOrder_eq_iff]
  constructor
  · rintro same (shifted | shifted)
    · exact shifted.ne (same.mp (.inr (.inl shifted)))
    · exact shifted.ne (same.mp (.inr (.inr shifted))).symm
  · intro still
    exact ⟨fun equal => equal.resolve_right still, .inl⟩

/-- Users whose names have no colon share an id with no others. -/
theorem uuid_eq_iff_of_no_colon (distinct : Set.InjOn hash {combinedKey a b, combinedKey c d})
    (inFirst : colon ∉ a ++ b) (inSecond : colon ∉ c ++ d) :
    generatePrivateRoomUuid hash a b = generatePrivateRoomUuid hash c d ↔ s(a, b) = s(c, d) := by
  have absent {u1 u2 : Bytes} (none : colon ∉ u1 ++ u2) : colon ∉ (inOrder u1 u2).2 := by
    rw [List.mem_append, not_or] at none
    rcases @inOrder_eq_or u1 u2 with same | same <;> rw [same]
    · exact none.2
    · exact none.1
  refine (uuid_eq_iff distinct).trans (combinedKey_exact_iff.mpr ?_)
  rintro (shifted | shifted)
  · exact not_shifted_of_not_mem (absent inFirst) shifted
  · exact not_shifted_of_not_mem (absent inSecond) shifted

/-- As long as the hash keeps the two keys apart, the ids are equal just for equal pairs of
users exactly if in neither key the separator is shifted against that in the other. -/
theorem uuid_exact_iff_not_shifted
    (distinct : Set.InjOn hash {combinedKey a b, combinedKey c d}) :
    (generatePrivateRoomUuid hash a b = generatePrivateRoomUuid hash c d ↔ s(a, b) = s(c, d)) ↔
      ¬ (Shifted colon (inOrder a b) (inOrder c d) ∨
        Shifted colon (inOrder c d) (inOrder a b)) := by
  rw [uuid_eq_iff distinct]
  exact combinedKey_exact_iff

end Keys

section Digests

/-- The bytes of an ASCII text. -/
def asciiBytes (text : String) : Bytes := text.toList.map fun char => UInt8.ofNat char.toNat

/-- The hash at the keys used below. -/
def digest (key : Bytes) : Vector UInt8 20 :=
  if key = asciiBytes "x::y::z" then
    ⟨#[116, 227, 189, 242, 109, 15, 212, 226, 86, 68, 64, 65, 192, 173, 238, 64, 194, 198, 166, 199], rfl⟩
  else if key = asciiBytes "alice::bob" then
    ⟨#[92, 147, 53, 209, 197, 57, 252, 17, 125, 135, 108, 4, 1, 230, 122, 82, 168, 193, 55, 105], rfl⟩
  else if key = asciiBytes "alice::carol" then
    ⟨#[102, 43, 249, 11, 35, 53, 212, 195, 213, 34, 41, 126, 141, 232, 243, 172, 74, 64, 79, 102], rfl⟩
  else .replicate 20 0

/-- The users `x` and `y::z` have the key of `x::y` and `z`. -/
theorem uuid_shared :
    ¬ ∀ (hash : Bytes → Vector UInt8 20) (a b c d : Bytes),
      Set.InjOn hash {combinedKey a b, combinedKey c d} →
      (generatePrivateRoomUuid hash a b = generatePrivateRoomUuid hash c d ↔ s(a, b) = s(c, d)) := by
  intro claimed
  let first := (asciiBytes "x", asciiBytes "y::z")
  let second := (asciiBytes "x::y", asciiBytes "z")
  have key : combinedKey first.1 first.2 = combinedKey second.1 second.2 := by decide
  have distinct : Set.InjOn digest {combinedKey first.1 first.2, combinedKey second.1 second.2} := by
    rw [key, Set.pair_eq_singleton]
    exact Set.injOn_singleton ..
  have same := (claimed digest first.1 first.2 second.1 second.2 distinct).mp
    (by rw [generatePrivateRoomUuid, key, generatePrivateRoomUuid])
  rcases Sym2.eq_iff.mp same with ⟨equal, _⟩ | ⟨equal, _⟩ <;> exact absurd equal (by decide)

/-- A user with two others. -/
theorem uuid_exact_iff_not_shifted_alice :
    (generatePrivateRoomUuid digest (asciiBytes "bob") (asciiBytes "alice") =
        generatePrivateRoomUuid digest (asciiBytes "alice") (asciiBytes "carol") ↔
      s(asciiBytes "bob", asciiBytes "alice") = s(asciiBytes "alice", asciiBytes "carol")) ↔
      ¬ (Shifted colon (asciiBytes "alice", asciiBytes "bob") (asciiBytes "alice", asciiBytes "carol") ∨
        Shifted colon (asciiBytes "alice", asciiBytes "carol") (asciiBytes "alice", asciiBytes "bob")) :=
  uuid_exact_iff_not_shifted (by
    have apart : digest (asciiBytes "alice::bob") ≠ digest (asciiBytes "alice::carol") := by decide
    exact Set.injOn_pair.mpr fun same => absurd same apart)

end Digests

end TinyChat.Core
