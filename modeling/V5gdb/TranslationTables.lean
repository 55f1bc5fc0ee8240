import V5gdb.Bitfields
import V5gdb.Instructions

/-!
First-level translation-table descriptors and what they permit.
Only descriptors of whole 1 MiB sections permit anything here: page tables of
the second level are not looked into.
-/
namespace V5gdb

open Bitfields

inductive AccessPermissions
  | noAccess
  | pl1AccessOnly
  | pl1AccessUserRead
  | allAccess
  | readOnlyPL1AccessOnly
  | readOnlyPL1AccessUserRead
  | readOnlyAllAccess
  deriving DecidableEq, Repr

namespace AccessPermissions

def raw : AccessPermissions → BitVec 3
  | noAccess => 0b000
  | pl1AccessOnly => 0b001
  | pl1AccessUserRead => 0b010
  | allAccess => 0b011
  | readOnlyPL1AccessOnly => 0b101
  | readOnlyPL1AccessUserRead => 0b110
  | readOnlyAllAccess => 0b111

def ofRaw (x : BitVec 3) : Option AccessPermissions :=
  [noAccess, pl1AccessOnly, pl1AccessUserRead, allAccess, readOnlyPL1AccessOnly,
    readOnlyPL1AccessUserRead, readOnlyAllAccess].find? fun p => p.raw = x

def testWrite (p : AccessPermissions) (pl1 : Bool) : Bool :=
  match p with
  | allAccess => true
  | pl1AccessOnly => pl1
  | pl1AccessUserRead => pl1
  | _ => false

def testRead (p : AccessPermissions) (pl1 : Bool) : Bool :=
  p.testWrite pl1 ||
    match p with
    | readOnlyAllAccess => true
    | readOnlyPL1AccessUserRead => true
    | pl1AccessUserRead => true
    | readOnlyPL1AccessOnly => pl1
    | _ => false

theorem testRead_of_testWrite {p : AccessPermissions} {pl1 : Bool}
    (h : p.testWrite pl1 = true) : p.testRead pl1 = true := by
  unfold testRead
  rw [h]
  rfl

end AccessPermissions

/-- A descriptor of a 1 MiB section or of something else. -/
structure L1Descriptor where
  raw : BitVec 32
  deriving DecidableEq, Repr

structure SectionDescriptor where
  raw : BitVec 32
  deriving DecidableEq, Repr

def L1Descriptor.SECTION : BitVec 2 := 0b10

def L1Descriptor.asSection (d : L1Descriptor) : Option SectionDescriptor :=
  if field 0 2 d.raw = SECTION then some ⟨d.raw⟩ else none

/-- The permission bits are bit 15, then bits 11 and 10. -/
def SectionDescriptor.accessPermissions (d : SectionDescriptor) : Option AccessPermissions :=
  AccessPermissions.ofRaw (field 15 1 d.raw ++ field 10 2 d.raw)

structure TranslationTable where
  descriptor : BitVec 12 → L1Descriptor

def TranslationTable.lookupL1 (t : TranslationTable) (addr : Addr) : L1Descriptor :=
  t.descriptor (field 20 12 addr)

def TranslationTable.canAccess (t : TranslationTable) (addr : Addr) (isWrite : Bool) : Bool :=
  match (t.lookupL1 addr).asSection.bind SectionDescriptor.accessPermissions with
  | some perms => if isWrite then perms.testWrite true else perms.testRead true
  | none => false

theorem TranslationTable.canRead_of_canWrite {t : TranslationTable} {addr : Addr}
    (h : t.canAccess addr true = true) : t.canAccess addr false = true := by
  unfold canAccess at h ⊢
  split at h
  · next perms hperms => exact AccessPermissions.testRead_of_testWrite h
  · cases h

end V5gdb
