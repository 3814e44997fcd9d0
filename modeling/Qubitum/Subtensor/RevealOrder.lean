import Qubitum.Subtensor.CommitReveal

/-!
# `Subtensor.RevealOrder` — in which order commits are revealed

A single reveal gives up the commits before the one it takes. What is in a queue are therefore the last commits that
were made, and a hotkey's reveals open its commits in the order in which it made them (`single_reveals_in_order`).

A batch takes its commits out of the queue and leaves those before them. After a batch has revealed a later commit an
earlier one can still be revealed, and its weights replace those of the later one (`batch_reveals_out_of_order`).
-/

namespace Qubitum.Subtensor
open Outcome Tickets Function

variable {A H : Type} [DecidableEq A]

/-- The hashes a hotkey has committed to on a mechanism, in this order. -/
def made (log : RevealLog A H) (index : MechanismIndex) (who : A) : List H :=
  log.filterMap fun
    | .issued c   => if c.index = index ∧ c.who = who then some c.commit.hash else none
    | .redeemed _ => none

/-- The hashes of the data it has revealed, in this order. -/
def revealed (cfg : WeightsConfig A H) (log : RevealLog A H) (index : MechanismIndex) (who : A) : List H :=
  log.filterMap fun
    | .issued _   => none
    | .redeemed r => if r.index = index ∧ r.who = who then some (cfg.commitHash (who, index, r.data)) else none

/-- Not a batch. -/
def WeightsAction.Single : WeightsAction A H → Prop
  | .call _ (.batchRevealWeights ..) => False
  | _ => True

section Steps
variable {cfg : WeightsConfig A H} {netuid : NetUid} {s s' : WeightsState A H} {log : RevealLog A H} {who : A}
  {index : MechanismIndex}

/-- What waits was made last, and what was revealed comes from what was made before it, in this order. -/
def Ordered (cfg : WeightsConfig A H) (s : WeightsState A H) (log : RevealLog A H) : Prop :=
  ∀ index who, ∃ past, past ++ (s.queue index who).map (·.hash) = made log index who ∧
    List.Sublist (revealed cfg log index who) past

/-- A commit goes to the end of the queue, from whose front some have left. -/
theorem Ordered.commit (ho : Ordered cfg s log) {commits : List (Commit H)} (hsuffix : commits <:+ s.queue index who)
    (c : Commit H)
    (hqueue : ∀ i w, s'.queue i w = if i = index ∧ w = who then commits ++ [c] else s.queue i w) :
    Ordered cfg s' (log ++ [.issued ⟨who, index, c⟩]) := by
  intro i w
  obtain ⟨past, hmade, hrevealed⟩ := ho i w
  have hsame : revealed cfg (log ++ [.issued ⟨who, index, c⟩]) i w = revealed cfg log i w := by
    simp [revealed]
  rw [hsame, hqueue]
  by_cases hkey : i = index ∧ w = who
  · obtain ⟨rfl, rfl⟩ := hkey
    obtain ⟨gone, hgone⟩ := hsuffix
    have hlast : made (log ++ [.issued ⟨w, i, c⟩]) i w = made log i w ++ [c.hash] := by
      simp [made]
    refine ⟨past ++ gone.map (·.hash), ?_, hrevealed.trans (List.sublist_append_left _ _)⟩
    rw [hlast, ← hmade, ← hgone]
    simp
  · refine ⟨past, ?_, hrevealed⟩
    rw [if_neg hkey, hmade]
    simp [made, eq_comm (a := index), eq_comm (a := who), hkey]

/-- A commit is revealed, and those before it are given up. -/
theorem Ordered.reveal (ho : Ordered cfg s log) {r : RevealMade A} {c : Commit H} {front rest : List (Commit H)}
    (hsuffix : front ++ c :: rest <:+ s.queue r.index r.who) (hhash : c.hash = cfg.commitHash (r.who, r.index, r.data))
    (hqueue : ∀ i w, s'.queue i w = if i = r.index ∧ w = r.who then rest else s.queue i w) :
    Ordered cfg s' (log ++ [.redeemed r]) := by
  intro i w
  obtain ⟨past, hmade, hrevealed⟩ := ho i w
  have hsame : made (log ++ [.redeemed r]) i w = made log i w := by
    simp [made]
  rw [hsame, hqueue]
  by_cases hkey : i = r.index ∧ w = r.who
  · obtain ⟨rfl, rfl⟩ := hkey
    obtain ⟨gone, hgone⟩ := hsuffix
    refine ⟨past ++ (gone ++ front).map (·.hash) ++ [c.hash], ?_, ?_⟩
    · rw [← hmade, ← hgone]
      simp
    · have hlast : revealed cfg (log ++ [.redeemed r]) r.index r.who = revealed cfg log r.index r.who ++ [c.hash] := by
        simp [revealed, hhash]
      rw [hlast]
      exact (hrevealed.trans (List.sublist_append_left _ _)).append_right _
  · refine ⟨past, by rw [if_neg hkey, hmade], ?_⟩
    have hnone : revealed cfg (log ++ [.redeemed r]) i w = revealed cfg log i w := by
      simp [revealed, eq_comm (a := r.index), eq_comm (a := r.who), hkey]
    rw [hnone]
    exact hrevealed

variable [DecidableEq H]

theorem WeightsAction.step_ordered {a : WeightsAction A H} (hsingle : a.Single) (ho : Ordered cfg s log) :
    Ordered cfg (a.step cfg netuid (s, log)).1 (a.step cfg netuid (s, log)).2 := by
  cases a with
  | nextBlock => exact ho
  | call env c =>
    cases hc : c.dispatch cfg netuid env s with
    | error e =>
      simp only [WeightsAction.step, hc]
      exact ho
    | ok s' =>
      simp only [WeightsAction.step, hc]
      cases c with
      | commitWeights who mecid hash =>
        obtain ⟨commits, hsuffix, -, hstored⟩ := internalCommitWeights_ok hc
        refine ho.commit hsuffix _ fun i w => ?_
        rw [queue_congr hstored, queue_storeCommits]
      | revealWeights who mecid data =>
        obtain ⟨front, c, rest, hsuffix, hhash, -, hstored⟩ := internalRevealWeights_ok hc
        refine ho.reveal hsuffix hhash fun i w => ?_
        rw [queue_congr hstored, queue_storeCommits]
      | batchRevealWeights => exact hsingle.elim

theorem run_ordered (run : List (WeightsAction A H)) (hsingle : ∀ a ∈ run, a.Single)
    (x : WeightsState A H × RevealLog A H) (hx : Ordered cfg x.1 x.2) :
    Ordered cfg (run.foldl (WeightsAction.step cfg netuid) x).1 (run.foldl (WeightsAction.step cfg netuid) x).2 := by
  induction run generalizing x with
  | nil => exact hx
  | cons a run ih =>
    exact ih (fun b hb => hsingle b (List.mem_cons_of_mem _ hb)) _ (a.step_ordered (hsingle a List.mem_cons_self) hx)
end Steps

/-- Without batches, for every run from empty queues, what a hotkey reveals on a mechanism is a part of what it
    committed to there, in the same order. -/
theorem single_reveals_in_order [DecidableEq H] (cfg : WeightsConfig A H) (netuid : NetUid)
    (run : List (WeightsAction A H)) (hsingle : ∀ a ∈ run, a.Single) (s t : WeightsState A H) (log : RevealLog A H)
    (hempty : ∀ index who, s.weightCommits index who = none)
    (hrun : run.foldl (WeightsAction.step cfg netuid) (s, []) = (t, log)) (index : MechanismIndex) (who : A) :
    List.Sublist (revealed cfg log index who) (made log index who) := by
  have hstart : Ordered cfg s [] := by
    intro index who
    exact ⟨[], by simp [WeightsState.queue, hempty, made], List.Sublist.refl _⟩
  have hordered : Ordered cfg (t, log).1 (t, log).2 := by
    rw [← hrun]
    exact run_ordered run hsingle (s, []) hstart
  obtain ⟨past, hmade, hrevealed⟩ := hordered index who
  rw [← hmade]
  exact hrevealed.trans (List.sublist_append_left _ _)

namespace Sample

def otherWeight : WeightsData := ⟨[0], [0], [8], 0⟩

/-- Two commits to different data in one epoch, and the first block of the next one. -/
def commitBoth : List (WeightsAction Bool (Bool × MechanismIndex × WeightsData)) :=
  commitSelfWeight :: List.replicate 6 .nextBlock ++
    [.call weightsEnv (.commitWeights true .main (true, 1, otherWeight)), .nextBlock]
end Sample
open Sample

/-- The two commits are revealed in the order in which they were made. -/
theorem single_reveals_in_order_two :
    let run := commitBoth ++ [.call weightsEnv (.revealWeights true .main selfWeight),
      .call weightsEnv (.revealWeights true .main otherWeight)]
    let log := (run.foldl (WeightsAction.step weightsConfig 1) (noCommits, [])).2
    log.length = 4 ∧ List.Sublist (revealed weightsConfig log 1 true) (made log 1 true) := by
  intro run log
  exact ⟨by decide +kernel, single_reveals_in_order weightsConfig 1 run
    (by simp [run, commitBoth, commitSelfWeight, WeightsAction.Single]) noCommits _ log (fun _ _ => rfl)
    Prod.mk.eta.symm 1 true⟩

/-- At block 8 a batch reveals the commit of block 7 and leaves that of block 1, which is revealed next. Its weights
    are then in force. -/
theorem batch_reveals_out_of_order :
    let run := commitBoth ++ [.call weightsEnv (.batchRevealWeights true [[0]] [[0]] [[8]] [0]),
      .call weightsEnv (.revealWeights true .main selfWeight)]
    let t := run.foldl (WeightsAction.step weightsConfig 1) (noCommits, [])
    t.1.weights 1 0 = [(0, 65535)] ∧ made t.2 1 true = [(true, 1, selfWeight), (true, 1, otherWeight)] ∧
      revealed weightsConfig t.2 1 true = [(true, 1, otherWeight), (true, 1, selfWeight)] ∧
      ¬ List.Sublist (revealed weightsConfig t.2 1 true) (made t.2 1 true) := by
  decide +kernel
end Qubitum.Subtensor
