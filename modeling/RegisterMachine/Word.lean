import RegisterMachine.Opcode
import RegisterMachine.Register
import RegisterMachine.Arithmetic

/-!
Instruction words of sixteen bits and the fields that share them.

The opcode is the lowest four bits, the register fields `rd` and `rs` are two bits each above it,
the byte field is the high eight bits, and the address field is the high ten bits, so it overlaps
the byte and `rs`.
-/

namespace RegisterMachine

abbrev Word := Fin 65536

abbrev Address := Fin 1024

abbrev Byte := Fin 256

/-- The registers of an arithmetic instruction are both operands, and one of them is written. -/
inductive Destination where
  | rs
  | rd
deriving DecidableEq, Repr

namespace Destination

/-- The bit above the operation says which register is written. -/
def bit : Destination → Nat
  | .rs => 0
  | .rd => 1

theorem bit_lt (destination : Destination) : destination.bit < 2 := by
  cases destination <;> decide

def ofByte (byte : Nat) : Destination :=
  if byte / 4 % 2 = 1 then .rd else .rs

/-- The register that a destination stands for. -/
def select (destination : Destination) (rd rs : Register) : Register :=
  match destination with
  | .rs => rs
  | .rd => rd

def name : Destination → String
  | .rs => "RS"
  | .rd => "RD"

end Destination

namespace Word

def opcodeNumber (word : Word) : Nat := word.val % 16

def rdIndex (word : Word) : Nat := word.val / 16 % 4

def rsIndex (word : Word) : Nat := word.val / 64 % 4

def byte (word : Word) : Byte := ⟨word.val / 256, by omega⟩

def address (word : Word) : Address := ⟨word.val / 64, by omega⟩

def opcode? (word : Word) : Option Opcode := Opcode.ofNumber? word.opcodeNumber

def rd (word : Word) : Register := Register.ofIndex word.rdIndex

def rs (word : Word) : Register := Register.ofIndex word.rsIndex

/-- A word with two registers and a byte. -/
def ofByte (opcode : Opcode) (rd rs : Register) (byte : Byte) : Word :=
  ⟨opcode.number + 16 * rd.index + 64 * rs.index + 256 * byte, by
    have number := opcode.number_lt
    have target := rd.index_lt
    have source := rs.index_lt
    omega⟩

/-- A word with two registers and nothing else. -/
def ofRegisters (opcode : Opcode) (rd rs : Register) : Word :=
  ofByte opcode rd rs ⟨0, by decide⟩

/-- A word with one register and an address. -/
def ofAddress (opcode : Opcode) (rd : Register) (address : Address) : Word :=
  ⟨opcode.number + 16 * rd.index + 64 * address, by
    have number := opcode.number_lt
    have target := rd.index_lt
    omega⟩

/-- The byte of an arithmetic word holds the operation and, above it, the destination. -/
def ofOperation (operation : Operation) (rd rs : Register) (destination : Destination) : Word :=
  ofByte .ath rd rs ⟨operation.code + 4 * destination.bit, by
      have operationBits := operation.code_lt
      have destinationBit := destination.bit_lt
      omega⟩

variable (opcode : Opcode) (target source : Register) (high : Byte) (place : Address)

theorem opcodeNumber_ofByte :
    (ofByte opcode target source high).opcodeNumber = opcode.number := by
  have number := opcode.number_lt
  simp only [opcodeNumber, ofByte]
  omega

theorem rdIndex_ofByte : (ofByte opcode target source high).rdIndex = target.index := by
  have number := opcode.number_lt
  have first := target.index_lt
  simp only [rdIndex, ofByte]
  omega

theorem rsIndex_ofByte : (ofByte opcode target source high).rsIndex = source.index := by
  have number := opcode.number_lt
  have first := target.index_lt
  have second := source.index_lt
  simp only [rsIndex, ofByte]
  omega

@[simp] theorem opcode?_ofByte : (ofByte opcode target source high).opcode? = some opcode := by
  rw [opcode?, opcodeNumber_ofByte, Opcode.ofNumber?_number]

@[simp] theorem rd_ofByte : (ofByte opcode target source high).rd = target := by
  rw [rd, rdIndex_ofByte, Register.ofIndex_index]

@[simp] theorem rs_ofByte : (ofByte opcode target source high).rs = source := by
  rw [rs, rsIndex_ofByte, Register.ofIndex_index]

@[simp] theorem byte_ofByte : (ofByte opcode target source high).byte = high := by
  have number := opcode.number_lt
  have first := target.index_lt
  have second := source.index_lt
  apply Fin.ext
  simp only [byte, ofByte]
  omega

theorem opcodeNumber_ofAddress :
    (ofAddress opcode target place).opcodeNumber = opcode.number := by
  have number := opcode.number_lt
  simp only [opcodeNumber, ofAddress]
  omega

theorem rdIndex_ofAddress : (ofAddress opcode target place).rdIndex = target.index := by
  have number := opcode.number_lt
  have first := target.index_lt
  simp only [rdIndex, ofAddress]
  omega

@[simp] theorem opcode?_ofAddress : (ofAddress opcode target place).opcode? = some opcode := by
  rw [opcode?, opcodeNumber_ofAddress, Opcode.ofNumber?_number]

@[simp] theorem rd_ofAddress : (ofAddress opcode target place).rd = target := by
  rw [rd, rdIndex_ofAddress, Register.ofIndex_index]

@[simp] theorem address_ofAddress : (ofAddress opcode target place).address = place := by
  have number := opcode.number_lt
  have first := target.index_lt
  apply Fin.ext
  simp only [address, ofAddress]
  omega

end Word

end RegisterMachine
