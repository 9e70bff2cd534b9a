import Vtt.Lib.FinMap

/-!
# The key-value store

The persistent store behind the state and the chain. Reads and writes of the store are taken not to
fail. A prefix scan returns its entries in key order.
-/

namespace Vtt

open Lib Std Option

/-- The column families of the store. -/
inductive Column where
  | blockHeaders
  | blockBodies
  | transactions
  | receipts
  | stateTrie
  | contractCode
  | chainIndex
  | crossChainQueue
  | accounts
  | assets
  | ownership
  | oracles
  | contractStorage
  | pools
  | assetProposals
  | miningStates
  | chainMeta
deriving DecidableEq

/-- The contents of a key-value store. -/
structure Store where
  column : Column → FinMap Bytes Bytes

namespace Store

/-- A store with nothing in it. -/
def empty : Store := ⟨fun _ => ∅⟩

def get (s : Store) (column : Column) (key : Bytes) : Option Bytes :=
  (s.column column)[key]?

def put (s : Store) (column : Column) (key value : Bytes) : Store :=
  ⟨fun c => if c = column then (s.column c).insert key value else s.column c⟩

def delete (s : Store) (column : Column) (key : Bytes) : Store :=
  ⟨fun c => if c = column then (s.column c).erase key else s.column c⟩

def contains (s : Store) (column : Column) (key : Bytes) : Bool := (s.get column key).isSome

/-- The entries of a column whose key starts with the given bytes. -/
def prefixScan (s : Store) (column : Column) (start : Bytes) : List (Bytes × Bytes) :=
  (s.column column).toList.filter fun e => start.isPrefixOf e.1

end Store

/-- A store that may be absent: the state and the chain also run in memory only. -/
abbrev Storage := Option Store

namespace Storage

/-- Read a key, if there is a store. -/
def read (s : Storage) (column : Column) (key : Bytes) : Option Bytes :=
  s.bind fun store => store.get column key

/-- Write a key, if there is a store. -/
def write (s : Storage) (column : Column) (key value : Bytes) : Storage :=
  s.map fun store => store.put column key value

/-- Remove a key, if there is a store. -/
def remove (s : Storage) (column : Column) (key : Bytes) : Storage :=
  s.map fun store => store.delete column key

/-- Write a list of keys in turn. -/
def writeAll (s : Storage) (column : Column) (entries : List (Bytes × Bytes)) : Storage :=
  entries.foldl (fun s e => s.write column e.1 e.2) s

section Lemmas

variable (s : Storage) {c c' : Column} {k k' : Bytes} (v : Bytes)

/-- A write leaves every other key alone. -/
theorem read_write_of_ne (h : c' ≠ c ∨ k' ≠ k) : (s.write c k v).read c' k' = s.read c' k' := by
  cases s with
  | none => rfl
  | some =>
    simp only [read, write, map_some, bind_some, Store.get, Store.put]
    split
    · rename_i hc
      rw [get_insert, if_neg (h.resolve_left (not_not_intro hc)).symm]
    · rfl

/-- Removing a key leaves every other key alone. -/
theorem read_remove_of_ne (h : c' ≠ c ∨ k' ≠ k) : (s.remove c k).read c' k' = s.read c' k' := by
  cases s with
  | none => rfl
  | some =>
    simp only [read, remove, map_some, bind_some, Store.get, Store.delete]
    split
    · rename_i hc
      rw [get_erase, if_neg (h.resolve_left (not_not_intro hc)).symm]
    · rfl

variable {s}

theorem read_write_self (h : s.isSome = true) (column : Column) (key : Bytes) {value : Bytes} :
    (s.write column key value).read column key = some value := by
  obtain ⟨_, rfl⟩ := isSome_iff_exists.1 h
  simp [read, write, Store.get, Store.put]

theorem read_remove_self (column : Column) {key : Bytes} :
    (s.remove column key).read column key = none := by
  cases s with
  | none => rfl
  | some => simp [read, remove, Store.get, Store.delete]

end Lemmas

end Storage

/-- The bytes of a text. -/
def ascii (s : String) : Bytes := s.toByteArray.data.toList

end Vtt
