import Vtt.State.Methods

/-!
# What all code on the state keeps

A property of the store that no write ends, together with one of the supply counters, is a frame of
its own: code that leaves the counters alone keeps it. It is enough that no write outside the
columns of the chain ends it.
-/

namespace Vtt

open Lib

/-- A property of stores that no write outside the columns of the chain and no removal of a
jurisdiction ends, and one of the supply counters. -/
structure Spared where
  storage : Storage → Prop
  supply : UInt64 → UInt64 → Prop
  write : ∀ {a} column key value, column.ofChain = false → storage a →
    storage (a.write column key value)
  remove : ∀ {a} address, storage a →
    storage (a.remove .chainMeta (StateDB.jurisdictionKey address))

namespace Spared

variable {K : Spared}

variable {s t : StateDB}

/-- A state has the property. -/
def Holds (K : Spared) (db : StateDB) : Prop :=
  K.storage db.storage ∧ K.supply db.totalMintedMilli db.totalBurnedMilli

/-- The property as a frame. -/
def frame (K : Spared) : Frame where
  storage a b := K.storage a ∧ b = a
  observed _ _ _ _ := True
  supply := K.supply
  read _ _ h _ := by rw [h.2]
  write column key value h hkey :=
    ⟨K.write column key value (Bool.or_eq_false_iff.1 hkey).1 h.1, by rw [h.2]⟩
  remove address h := ⟨K.remove address h.1, by rw [h.2]⟩

theorem Holds.linked {db : StateDB} (h : K.Holds db) : K.frame.Linked db db :=
  .mk ⟨h.1, rfl⟩ trivial h.2

theorem holds_of_linked (h : K.frame.Linked s t) : K.Holds s := by
  cases h with
  | mk hstorage _ hsupply => exact ⟨hstorage.1, hsupply⟩

/-- Code that leaves the counters alone keeps the property. -/
theorem Holds.run {ε α : Type} {x : DbM ε α} {r : Except ε α} (h : K.Holds s)
    (hrun : x.run s = some (r, t)) :
    K.Holds t := by
  obtain ⟨_, -, linked⟩ := (x.respects K.frame h.linked).exists_right hrun
  exact holds_of_linked linked

/-- So does code that counts supply, if the property says nothing of the counters. -/
theorem Holds.run_settle {ε α : Type} {x : SettleM ε α} {r : Except ε α}
    (hsupply : ∀ minted burned, K.supply minted burned) (h : K.Holds s)
    (hrun : x.run s = some (r, t)) : K.Holds t := by
  obtain ⟨_, -, linked⟩ := (x.respects ⟨K.frame, hsupply⟩ h.linked).exists_right hrun
  exact holds_of_linked linked

end Spared

/-- A property of stores that no write and no removal of a jurisdiction ends, and one of the supply
counters. -/
structure Kept where
  storage : Storage → Prop
  supply : UInt64 → UInt64 → Prop
  write : ∀ {a} column key value, storage a → storage (a.write column key value)
  remove : ∀ {a} address, storage a →
    storage (a.remove .chainMeta (StateDB.jurisdictionKey address))

namespace Kept

/-- What no write ends, no write outside the columns of the chain ends. -/
def spared (K : Kept) : Spared where
  storage := K.storage
  supply := K.supply
  write column key value _ := K.write column key value
  remove := K.remove

/-- A state has the property. -/
abbrev Holds (K : Kept) (db : StateDB) : Prop := K.spared.Holds db

/-- There is no store. -/
def memory : Kept where
  storage a := a = none
  supply _ _ := True
  write _ _ _ h := by
    rw [h]
    rfl
  remove _ h := by
    rw [h]
    rfl

/-- The counters have the given values. -/
def counters (minted burned : UInt64) : Kept where
  storage _ := True
  supply m b := m = minted ∧ b = burned
  write _ _ _ _ := trivial
  remove _ _ := trivial

end Kept

/-- Code that leaves the supply alone leaves the counters as they are. -/
theorem DbM.run_counters {ε α : Type} (x : DbM ε α) {s t : StateDB} {r : Except ε α}
    (h : x.run s = some (r, t)) :
    t.totalMintedMilli = s.totalMintedMilli ∧ t.totalBurnedMilli = s.totalBurnedMilli :=
  have kept : (Kept.counters s.totalMintedMilli s.totalBurnedMilli).Holds s := ⟨trivial, rfl, rfl⟩
  (kept.run h).2

end Vtt
