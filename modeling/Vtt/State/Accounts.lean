import Vtt.State.Frame

/-!
# Accounts before and after

What the other methods of the state database do to the account that an address has, from the cache
or from the store.
-/

namespace Vtt

open Lib
open Storage (read_write_of_ne)

namespace StateDB

variable (db : StateDB)

variable {address validator : Address} {epoch : UInt64}

@[simp] theorem getAccount_putAccount_self (state : AccountState) :
    (db.putAccount address state).getAccount address = state := by
  simp [getAccount, putAccount]

theorem getAccount_congr {s t : StateDB} (haccounts : s.accounts = t.accounts)
    (hread : ∀ key, s.storage.read .accounts key = t.storage.read .accounts key) :
    s.getAccount address = t.getAccount address := by
  simp only [getAccount, haccounts, hread]

theorem getAccount_of_cached {db : StateDB} {account : AccountState}
    (h : db.accounts[address]? = some account) :
    db.getAccount address = account := by
  rw [getAccount, h]

theorem getAccount_putAccount_of_ne {other : Address} (h : other ≠ address) (state : AccountState) :
    (db.putAccount address state).getAccount other = db.getAccount other := by
  have stored : (db.putAccount address state).storage.read .accounts other.asBytes =
      db.storage.read .accounts other.asBytes := by
    have hkey : other.asBytes ≠ address.asBytes := fun heq => h (Address.asBytes_injective heq)
    simp only [putAccount, storeStakers]
    split
    · rw [read_write_of_ne _ _ (.inl (by decide)), read_write_of_ne _ _ (.inr hkey)]
    · rw [read_write_of_ne _ _ (.inr hkey)]
  have cached : (db.putAccount address state).accounts[other]? = db.accounts[other]? := by
    simp only [putAccount]
    rw [Std.ExtTreeMap.getElem?_insert, if_neg]
    exact fun heq => h (Std.LawfulEqOrd.eq_of_compare heq).symm
  rw [getAccount, cached, stored, getAccount]

@[simp] theorem getAccount_writeMeta (key value : Bytes) :
    (db.writeMeta key value).getAccount address = db.getAccount address := by
  apply getAccount_congr
  · rfl
  · exact fun _ => read_write_of_ne _ _ (.inl (by decide))

@[simp] theorem getAccount_recordSlash (reason : String) (amount : Amount) :
    (db.recordSlash validator epoch reason amount).getAccount address = db.getAccount address := by
  simp only [recordSlash, getAccount_writeMeta]

@[simp] theorem getAccount_markSlashingEvidence (offender : Address) (slot : UInt32) :
    (db.markSlashingEvidence offender epoch slot).getAccount address = db.getAccount address := by
  apply getAccount_congr
  · rfl
  · exact fun _ => read_write_of_ne _ _ (.inl (by decide))

@[simp] theorem getAccount_slashUnbondingEntries (slashUnbonding pending : U128) :
    (db.slashUnbondingEntries validator slashUnbonding pending).getAccount address =
      db.getAccount address := by
  apply getAccount_congr
  · rfl
  · intro _
    simp only [slashUnbondingEntries, storeUnbonding]
    split
    · exact read_write_of_ne _ _ (.inl (by decide))
    · rfl

@[simp] theorem getAccount_addUnbondingEntry (owner : Address) (entry : UnbondingEntry) :
    (db.addUnbondingEntry owner entry).getAccount address = db.getAccount address := by
  apply getAccount_congr
  · rfl
  · exact fun _ => read_write_of_ne _ _ (.inl (by decide))

@[simp] theorem getAccount_recordBlockCommitment (validator : Address) (epoch : UInt64)
    (slot : UInt32) (hash : H256) (address : Address) :
    (db.recordBlockCommitment validator epoch slot hash).2.getAccount address =
      db.getAccount address := by
  apply getAccount_congr
  · rfl
  · exact fun _ => read_recordBlockCommitment _ _ _ _ _ rfl

@[simp] theorem getAccount_recordMissedSlot :
    (db.recordMissedSlot epoch validator).getAccount address = db.getAccount address := by
  apply getAccount_congr
  · rfl
  · exact fun _ => read_recordMissedSlot _ _ _ rfl

end StateDB

end Vtt
