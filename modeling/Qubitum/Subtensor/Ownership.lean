import Qubitum.Subtensor.SwapEffects

/-!
# `Subtensor.Ownership` — who owns a hotkey

`Owner` maps a hotkey to its coldkey, `OwnedHotkeys` a coldkey to its hotkeys. The two agree
(`Ownership.Agree`) when a hotkey is listed once under its owner and under nobody else.

A hotkey swap writes `Owner(new_hotkey) := coldkey` and never asks who owns the new hotkey. Its guards want
it unregistered and, where root is touched, without claims and without stake on root; a hotkey of somebody
else can be all of that. The swap then takes it: `owners_kept_iff` says that this is the only way to lose a
hotkey to another coldkey, and the only way for the two maps to disagree afterwards.
-/

namespace Qubitum.Subtensor
open Outcome Mutation Function

variable {A B X R : Type} [DecidableEq A]

namespace Ownership
variable {o : Ownership A} {h c : A}

/-- `Owner` and `OwnedHotkeys` agree. -/
def Agree (o : Ownership A) : Prop := ∀ h c, (o.ownedHotkeys c).count h = if o.owner h = some c then 1 else 0

theorem agree_iff : o.Agree ↔ (∀ c, (o.ownedHotkeys c).Nodup) ∧ ∀ h c, h ∈ o.ownedHotkeys c ↔ o.owner h = some c := by
  constructor
  · intro hagree
    refine ⟨fun c => List.nodup_iff_count_le_one.mpr fun h => ?_, fun h c => ?_⟩
    · rw [hagree h c]
      split <;> omega
    · rw [← List.count_pos_iff, hagree h c]
      split <;> simp_all
  · rintro ⟨hnodup, hmem⟩ h c
    by_cases howner : o.owner h = some c
    · rw [if_pos howner]
      exact List.count_eq_one_of_mem (hnodup c) ((hmem h c).mpr howner)
    · rw [if_neg howner]
      exact List.count_eq_zero_of_not_mem fun hlisted => howner ((hmem h c).mp hlisted)

/-- Nobody but `coldkey` owns the hotkey. -/
def FreeFor (o : Ownership A) (coldkey hotkey : A) : Prop := ∀ c, o.owner hotkey = some c → c = coldkey

/-- Every hotkey of a coldkey other than `coldkey` still belongs to it. -/
def OthersKept (coldkey : A) (o o' : Ownership A) : Prop :=
  ∀ h c, c ≠ coldkey → o.owner h = some c → o'.owner h = some c

/-! ## Single writes -/

theorem agree_assign {coldkey hotkey : A} (hagree : o.Agree) (hfree : o.FreeFor coldkey hotkey) :
    (o.assign coldkey hotkey).Agree := by
  obtain ⟨hnodup, hmem⟩ := agree_iff.mp hagree
  refine agree_iff.mpr ⟨fun c => ?_, fun h c => ?_⟩
  · by_cases hc : c = coldkey
    · subst hc
      simpa [assign] using nodup_pushNew (hnodup c)
    · simpa [assign, hc] using hnodup c
  · by_cases hh : h = hotkey
    · subst hh
      by_cases hc : c = coldkey
      · subst hc
        simp [assign, mem_pushNew]
      · -- the hotkey was not listed under `c`: it would have been owned by `c`
        have hnot : o.owner h ≠ some c := fun howner => hc (hfree c howner)
        simp [assign, hc, hmem, hnot, Ne.symm hc]
    · by_cases hc : c = coldkey
      · subst hc
        simp [assign, mem_pushNew, hh, hmem]
      · simp [assign, hc, hh, hmem]

theorem agree_swapHotkey {coldkey oldHotkey newHotkey : A} (hagree : o.Agree)
    (howned : o.owner oldHotkey = some coldkey) (hne : oldHotkey ≠ newHotkey)
    (hfree : o.FreeFor coldkey newHotkey) : (o.swapHotkey oldHotkey newHotkey coldkey).Agree := by
  obtain ⟨hnodup, hmem⟩ := agree_iff.mp (agree_assign hagree hfree)
  refine agree_iff.mpr ⟨fun c => ?_, fun h c => ?_⟩
  · by_cases hc : c = coldkey
    · subst hc
      have hassigned := hnodup c
      simp only [assign, update_self] at hassigned
      simpa [swapHotkey] using hassigned.filter _
    · have hkept := hnodup c
      simpa [assign, swapHotkey, hc] using hkept
  · -- a swap is an assignment of the new hotkey, without the old one
    have hassigned := hmem h c
    by_cases hold : h = oldHotkey
    · subst hold
      by_cases hc : c = coldkey
      · simp [swapHotkey, hc, hne]
      · have hother := (agree_iff.mp hagree).2 h c
        simp [swapHotkey, hc, hne, hother, howned, Ne.symm hc]
    · by_cases hc : c = coldkey
      · subst hc
        simpa [assign, swapHotkey, hold, update_apply] using hassigned
      · simpa [assign, swapHotkey, hc, hold, update_apply] using hassigned

variable {newColdkey oldColdkey : A}

/-- The owners and the list that the loop of `transfer_hotkeys_ownership` ends with. -/
theorem foldl_transfer (hotkeys : List A) (owner : A → Option A) (newOwned : List A) : hotkeys.foldl
      (fun (owner, newOwned) hotkey =>
        (update (update owner hotkey none) hotkey (some newColdkey), pushNew newOwned hotkey))
      (owner, newOwned) =
    (fun h => if h ∈ hotkeys then some newColdkey else owner h, hotkeys.foldl pushNew newOwned) := by
  induction hotkeys generalizing owner newOwned with
  | nil => simp
  | cons hotkey rest ih =>
    rw [List.foldl_cons, ih]
    refine Prod.ext (funext fun h => ?_) rfl
    by_cases hrest : h ∈ rest
    · simp [hrest]
    · by_cases hh : h = hotkey <;> simp [hh, hrest]

theorem owner_transferHotkeysOwnership :
    (o.transferHotkeysOwnership oldColdkey newColdkey).owner h =
      if h ∈ o.ownedHotkeys oldColdkey then some newColdkey else o.owner h := by
  unfold transferHotkeysOwnership
  rw [foldl_transfer]

theorem ownedHotkeys_transferHotkeysOwnership :
    (o.transferHotkeysOwnership oldColdkey newColdkey).ownedHotkeys =
      update (update o.ownedHotkeys oldColdkey []) newColdkey
        ((o.ownedHotkeys oldColdkey).foldl pushNew (o.ownedHotkeys newColdkey)) := by
  unfold transferHotkeysOwnership
  rw [foldl_transfer]
end Ownership

/-! ## Calls -/

section Calls
variable {s s' : State A B X R}

open Ownership

variable {coldkey oldHotkey newHotkey : A} {netuid : Option NetUid} {keepStake : Bool}

section
variable (h : HotkeySwapped s s' coldkey oldHotkey newHotkey netuid keepStake)
include h

/-- Either way of swapping makes the caller the owner of the new hotkey, -/
theorem HotkeySwapped.owner_new : s'.ownership.owner newHotkey = some coldkey := by
  rw [h.ownership]
  cases netuid <;> simp [hotkeySwapped, assign, swapHotkey]

/-- and changes no other owner except that the old hotkey may lose its own. -/
theorem HotkeySwapped.owner_other {hotkey : A} (hold : hotkey ≠ oldHotkey) (hnew : hotkey ≠ newHotkey) :
    s'.ownership.owner hotkey = s.ownership.owner hotkey := by
  rw [h.ownership]
  cases netuid <;> simp [hotkeySwapped, assign, swapHotkey, hold, hnew]

theorem HotkeySwapped.othersKept_iff :
    OthersKept coldkey s.ownership s'.ownership ↔ s.ownership.FreeFor coldkey newHotkey := by
  constructor
  · intro hkept c howner
    by_contra hc
    have hstill := hkept newHotkey c hc howner
    rw [h.owner_new] at hstill
    exact hc (Option.some.inj hstill).symm
  · intro hfree hotkey c hc howner
    have hold : hotkey ≠ oldHotkey := by
      rintro rfl
      exact hc (Option.some.inj (howner.symm.trans h.owned))
    have hnew : hotkey ≠ newHotkey := by
      rintro rfl
      exact hc (hfree c howner)
    rw [h.owner_other hold hnew, howner]

theorem HotkeySwapped.agree_iff (hagree : s.ownership.Agree) :
    s'.ownership.Agree ↔ s.ownership.FreeFor coldkey newHotkey := by
  constructor
  · -- a former owner still has the new hotkey in its list
    intro hagree' c howner
    by_contra hc
    have hlisted := ((Ownership.agree_iff.mp hagree).2 newHotkey c).mpr howner
    have hsame : s'.ownership.ownedHotkeys c = s.ownership.ownedHotkeys c := by
      rw [h.ownership]
      cases netuid <;> simp [hotkeySwapped, assign, swapHotkey, hc]
    rw [← hsame] at hlisted
    have hstill := ((Ownership.agree_iff.mp hagree').2 newHotkey c).mp hlisted
    rw [h.owner_new] at hstill
    exact hc (Option.some.inj hstill).symm
  · intro hfree
    rw [h.ownership]
    cases netuid with
    | some _ => exact agree_assign hagree hfree
    | none => exact agree_swapHotkey hagree h.owned h.ne hfree
end

theorem agree_createAccountIfNonExistent {hotkey : A} (hagree : s.ownership.Agree) :
    (s.createAccountIfNonExistent coldkey hotkey).ownership.Agree := by
  unfold State.createAccountIfNonExistent
  split
  · exact hagree
  · rename_i hnone
    have howner : s.ownership.owner hotkey = none := by
      simpa [hotkeyAccountExists] using hnone
    exact agree_assign hagree fun c hc => by rw [howner] at hc; cases hc
end Calls

open Ownership in
/-- **Who keeps a hotkey.** From a state in which `Owner` and `OwnedHotkeys` agree, a successful hotkey swap
    leaves the hotkeys of the other coldkeys where they are, and leaves the two maps in agreement, exactly
    if the new hotkey is not owned by another coldkey. Creating an account and swapping a coldkey always
    leave them in agreement. -/
theorem owners_kept_iff (cfg : Config A B X R) (s : State A B X R) (hagree : s.ownership.Agree) :
    (∀ (coldkey oldHotkey newHotkey : A) (netuid : Option NetUid) (keepStake : Bool) (u : Unit)
        (s' : State A B X R),
      doSwapHotkey cfg (.signed coldkey) oldHotkey newHotkey netuid keepStake s = .ok u s' →
        (OthersKept coldkey s.ownership s'.ownership ↔ s.ownership.FreeFor coldkey newHotkey) ∧
        (s'.ownership.Agree ↔ s.ownership.FreeFor coldkey newHotkey)) ∧
      (∀ coldkey hotkey, (s.createAccountIfNonExistent coldkey hotkey).ownership.Agree) ∧
      (∀ (oldColdkey newColdkey : A) (u : Unit) (s' : State A B X R),
        doSwapColdkey cfg oldColdkey newColdkey s = .ok u s' → s'.ownership.Agree) := by
  refine ⟨?_, fun _ _ => agree_createAccountIfNonExistent hagree, ?_⟩
  · intro coldkey oldHotkey newHotkey netuid keepStake u s' hok
    obtain ⟨signer, hsigner, hswapped⟩ := hotkeySwapped_of_ok hok
    obtain rfl : coldkey = signer := by simpa using hsigner
    exact ⟨hswapped.othersKept_iff, hswapped.agree_iff hagree⟩
  · intro oldColdkey newColdkey u s' hok
    rw [(coldkeySwapped_of_ok hok).ownership]
    obtain ⟨hnodup, hmem⟩ := agree_iff.mp hagree
    refine agree_iff.mpr ⟨fun c => ?_, fun h c => ?_⟩
    · rw [ownedHotkeys_transferHotkeysOwnership]
      by_cases hnew : c = newColdkey
      · subst hnew
        simpa using nodup_foldl_pushNew (hnodup c)
      · by_cases hold : c = oldColdkey
        · subst hold
          simp [hnew]
        · simpa [hnew, hold] using hnodup c
    · rw [owner_transferHotkeysOwnership, ownedHotkeys_transferHotkeysOwnership]
      by_cases hnew : c = newColdkey
      · subst hnew
        by_cases hlisted : h ∈ s.ownership.ownedHotkeys oldColdkey <;> simp [mem_foldl_pushNew, hlisted, hmem]
      · by_cases hold : c = oldColdkey
        · subst hold
          by_cases hlisted : h ∈ s.ownership.ownedHotkeys c
          · simp [hnew, hlisted, Ne.symm hnew]
          · simpa [hnew, hlisted] using fun howner => hlisted ((hmem h c).mpr howner)
        · by_cases hlisted : h ∈ s.ownership.ownedHotkeys oldColdkey
          · -- listed under the old coldkey, so not owned by `c`
            have howner := (hmem h oldColdkey).mp hlisted
            simp [hnew, hold, hlisted, hmem, howner, Ne.symm hnew, Ne.symm hold]
          · simp [hnew, hold, hlisted, hmem]

/-! ## Taking somebody's hotkey -/

namespace Sample

/-- Account 0 owns hotkey 1, account 3 owns hotkey 2; nothing is staked and nobody is registered. -/
def associated : State Account (Account → Nat) Unit Unit :=
  (fresh.createAccountIfNonExistent 0 1).createAccountIfNonExistent 3 2

theorem associated_agree : associated.ownership.Agree := by
  have hfresh : fresh.ownership.Agree := fun _ _ => rfl
  exact agree_createAccountIfNonExistent (agree_createAccountIfNonExistent hfresh)

/-- What `do_swap_hotkey` by account 0 makes of it, on all subnets and with the stake. -/
def renamedTo (newHotkey : Account) : State Account (Account → Nat) Unit Unit :=
  left (doSwapHotkey config (.signed 0) 1 newHotkey none false associated)
end Sample
open Sample

/-- Swapped for a hotkey that nobody owns, -/
theorem owners_kept_renamed :
    associated.ownership.Agree ∧
      doSwapHotkey config (.signed 0) 1 0 none false associated = .ok () (renamedTo 0) ∧
      Ownership.OthersKept 0 associated.ownership (renamedTo 0).ownership ∧
      (renamedTo 0).ownership.Agree := by
  have hok : doSwapHotkey config (.signed 0) 1 0 none false associated = .ok () (renamedTo 0) := rfl
  have hfree : associated.ownership.FreeFor 0 0 := by
    intro c hc
    cases (show none = some c from hc)
  have hkept := (owners_kept_iff config associated associated_agree).1 0 1 0 none false () _ hok
  exact ⟨associated_agree, hok, hkept.1.mpr hfree, hkept.2.mpr hfree⟩

/-- and for the hotkey of account 3, which loses it and still has it listed. -/
theorem owners_taken :
    associated.ownership.Agree ∧
      doSwapHotkey config (.signed 0) 1 2 none false associated = .ok () (renamedTo 2) ∧
      associated.ownership.owner 2 = some 3 ∧
      (renamedTo 2).ownership.owner 2 = some 0 ∧
      (renamedTo 2).ownership.ownedHotkeys 3 = [2] ∧
      ¬ (renamedTo 2).ownership.Agree := by
  refine ⟨associated_agree, rfl, rfl, rfl, rfl, fun hagree => ?_⟩
  exact absurd (hagree 2 3) (by decide)
end Qubitum.Subtensor
