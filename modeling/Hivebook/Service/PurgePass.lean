import Hivebook.Lib.Threads
import Hivebook.Service.Commands

/-!
# Where a purge pass stands

A purge pass lists the rows that are owed an erasure, deletes their objects one by one,
and drops the rows whose delete was confirmed.  No other job deletes an object or drops a
row.

The pass has rows still to delete and rows that it is going to drop, and both are known
from the commands it has performed.

## Main definitions

* `Purging`, `outbox` — where a purge pass stands, and what it may do there.
* `passOf tr i` — where the pass of a thread stands.

## Main results

* `Job.spares` — a job other than a purge pass erases nothing.
* `Job.follows_outbox` — **every job follows the protocol.**
-/

namespace Hivebook

open Database Machine Storage

/-! ### Only a purge pass erases -/

/-- A command that deletes an object or drops rows. -/
def Cmd.erases : Cmd → Bool
  | .deleteObject _ _ | .statement (.confirmArtifactDeletes _) => true
  | _ => false

/-- **A job other than a purge pass erases nothing.** -/
theorem Job.spares (a : Activities) (sv : Server) (j : Job)
    (hj : ∀ limit, j ≠ .upkeep (.purgeArtifacts limit)) :
    (j.prog a sv).Uses fun c => c.erases = false := by
  have hplain : ∀ c : Cmd, c.plain = true → c.erases = false := by
    intro c hc
    cases c with
    | statement s => cases s <;> first | rfl | cases hc
    | deleteObject _ _ => cases hc
    | _ => rfl
  have hsteady : ∀ c : Cmd, c.steady = true → c.erases = false :=
    fun c hc => hplain c (plain_of_steady hc)
  have hhandles : ∀ c : Cmd, c.handles = true → c.erases = false := by
    intro c hc
    cases c with
    | statement s => cases s <;> first | rfl | cases hc
    | deleteObject _ _ => cases hc
    | _ => rfl
  refine (Job.uses a sv j).mono fun c hc => ?_
  cases j with
  | upkeep u =>
    cases u with
    | discoverUnits id =>
      cases c with
      | statement s => cases s <;> first | rfl | cases hc
      | deleteObject _ _ => cases hc
      | _ => rfl
    | purgeArtifacts limit => exact absurd rfl (hj limit)
    | checkPurgeSLA => exact hsteady c hc
    | gcRemovedUnits => exact hsteady c hc
  | syncUnit i =>
    cases c with
    | statement s => cases s <;> first | rfl | cases hc
    | deleteObject _ _ => cases hc
    | _ => rfl
  | startRun id => exact hsteady c hc
  | settleConnection id => exact hsteady c hc
  | nextUnitBatch id limit => exact hsteady c hc
  | capacity id tenantID connectorID => exact hsteady c hc
  | _ => exact hhandles c hc

/-! ### What a job has listed -/

/-- What a job has listed after a command: nothing but what it had, or the rows just
listed. -/
theorem listed_next (x : Choice) (b : Bool) (w : World) (c : Cmd) (g : Custody) :
    (∀ r ∈ (g.next c (service.perform x b w c).2).listed, r ∈ g.listed) ∨
      ∃ n, c = .statement (.listPurgePendingArtifacts n) ∧ x.takesEffect b = true ∧
        (g.next c (service.perform x b w c).2).listed = listPurgePendingArtifacts n w.db := by
  cases c with
  | statement s =>
    cases s with
    | listPurgePendingArtifacts n =>
      rw [service_statement]
      cases b with
      | true => exact Or.inl fun r hr => hr
      | false =>
        unfold Choice.reply Choice.takesEffect
        cases x.outcome with
        | applied => exact Or.inr ⟨n, rfl, rfl, rfl⟩
        | refused text => exact Or.inl fun r hr => hr
        | lost text => exact Or.inl fun r hr => hr
    | _ => exact Or.inl fun r hr => hr
  | putObject bucket key contentType body =>
    generalize (service.perform x b w (.putObject bucket key contentType body)).2 = reply
    cases reply with
    | error e => exact Or.inl fun r hr => hr
    | ok _ => exact Or.inl fun r hr => by cases hr
  | _ => exact Or.inl fun r hr => hr

/-! ### Where a purge pass stands -/

/-- Where a purge pass stands. -/
structure Purging where
  /-- The rows it has listed, and whose objects it has still to delete. -/
  todo : List RawArtifact
  /-- The rows it is going to drop: their objects are deleted, or they have none. -/
  drops : List RawArtifact

/-- A job that starts has listed nothing. -/
def Purging.init : Purging := { todo := [], drops := [] }

/-- How a response moves a pass on. -/
def Purging.next (g : Purging) : (c : Cmd) → c.Resp → Purging
  | .statement (.listPurgePendingArtifacts _), .ok rows =>
      { todo := rows.filter fun r => (cut r.objectKey).isSome
        drops := rows.filter fun r => decide (r.objectKey = "") }
  | .deleteObject _ _, .ok _ => { todo := g.todo.tail, drops := g.drops ++ g.todo.take 1 }
  | .deleteObject _ _, .error _ => { g with todo := g.todo.tail }
  | .statement (.confirmArtifactDeletes _), _ => .init
  | _, _ => g

/-- What a purge pass may do: delete the object that is next, and drop what it has
deleted. -/
def outbox : Protocol Purging Cmd Cmd.Resp where
  allowed g
    | .deleteObject bucket key =>
        ∃ r rest, g.todo = r :: rest ∧ cut r.objectKey = some (bucket, key)
    | .statement (.confirmArtifactDeletes ids) => ∀ id ∈ ids, ∃ r ∈ g.drops, r.id = id
    | _ => True
  next := Purging.next

theorem cut_empty : cut "" = none := rfl

/-- The delete loop deletes the objects one after the other, and confirms what it has
deleted or what had no object. -/
theorem follows_outbox_purgeRows (rows : List RawArtifact) (confirmed : List Uuid)
    (res : PurgeResult) (g : Purging)
    (htodo : g.todo = rows.filter fun r => (cut r.objectKey).isSome)
    (hempty : ∀ r ∈ rows, r.objectKey = "" → r ∈ g.drops)
    (hids : ∀ id ∈ confirmed, ∃ r ∈ g.drops, r.id = id) :
    (Activities.purgeRows confirmed res rows).Follows outbox
      (fun r g => ∀ id ∈ r.1, ∃ r ∈ g.drops, r.id = id) g := by
  induction rows generalizing confirmed res g with
  | nil => exact hids
  | cons r rs ih =>
    have hrest : ∀ r ∈ rs, r.objectKey = "" → r ∈ g.drops := fun r hr => hempty r (by simp [hr])
    unfold Activities.purgeRows
    split
    · rename_i hkey
      have hnone : (cut r.objectKey).isSome = false := by rw [hkey, cut_empty]; rfl
      rw [List.filter_cons_of_neg (by rw [hnone]; exact Bool.false_ne_true)] at htodo
      refine ih _ _ g htodo hrest fun id hid => ?_
      rcases List.mem_append.mp hid with hid | hid
      · exact hids id hid
      · exact ⟨r, hempty r (by simp) hkey, (List.mem_singleton.mp hid).symm⟩
    · unfold deleteObject
      cases hcut : cut r.objectKey with
      | none =>
        rw [List.filter_cons_of_neg (by rw [hcut]; exact Bool.false_ne_true)] at htodo
        exact ih _ _ g htodo hrest hids
      | some key =>
        rw [List.filter_cons_of_pos (by rw [hcut]; rfl)] at htodo
        refine ⟨⟨r, _, htodo, hcut⟩, fun reply => ?_⟩
        have htail : g.todo.tail = rs.filter fun r => (cut r.objectKey).isSome := by
          rw [htodo, List.tail_cons]
        cases reply with
        | error e => exact ih _ _ { g with todo := g.todo.tail } htail hrest hids
        | ok _ =>
          -- the object is gone, so the row may be confirmed
          have htake : g.todo.take 1 = [r] := by rw [htodo]; rfl
          refine ih _ _ { todo := g.todo.tail, drops := g.drops ++ g.todo.take 1 } htail ?_ ?_
          · intro r' hr' hkey
            exact List.mem_append.mpr (Or.inl (hrest r' hr' hkey))
          · intro id hid
            rw [htake]
            rcases List.mem_append.mp hid with hid | hid
            · obtain ⟨r', hr', hid⟩ := hids id hid
              exact ⟨r', List.mem_append.mpr (Or.inl hr'), hid⟩
            · exact ⟨r, by simp, (List.mem_singleton.mp hid).symm⟩

theorem follows_outbox_purgeArtifacts (limit : ℤ) (g : Purging) :
    (Activities.purgeArtifacts limit).Follows outbox (fun _ _ => True) g := by
  refine ⟨trivial, fun r => ?_⟩
  cases r with
  | error e => trivial
  | ok rows =>
    show Prog.Follows _ _ _ ((Activities.purgeRows [] _ rows).bind _)
    refine (follows_outbox_purgeRows rows [] _ _ rfl ?_ (by simp)).bind fun r g hdrop => ?_
    · intro r hr hkey
      exact List.mem_filter.mpr ⟨hr, decide_eq_true hkey⟩
    · obtain ⟨confirmed, res⟩ := r
      show Prog.Follows _ _ _ (if confirmed = [] then _ else _)
      split
      · trivial
      · refine ⟨hdrop, fun reply => ?_⟩
        cases reply <;> trivial

theorem outbox_of_spares {c : Cmd} (hc : c.erases = false) (g : Purging) : outbox.allowed g c := by
  cases c with
  | statement s => cases s <;> trivial
  | deleteObject _ _ => cases hc
  | _ => trivial

/-- **Every job follows the protocol of the outbox.** -/
theorem Job.follows_outbox (a : Activities) (sv : Server) (j : Job) :
    (j.prog a sv).Follows outbox (fun _ _ => True) Purging.init := by
  by_cases hj : ∃ limit, j = .upkeep (.purgeArtifacts limit)
  · obtain ⟨limit, rfl⟩ := hj
    exact (follows_outbox_purgeArtifacts limit _).bind fun _ _ _ => trivial
  · have hspares := Job.spares a sv j fun limit heq => hj ⟨limit, heq⟩
    exact Prog.follows_of_uses (hspares.mono fun c hc g _ =>
      ⟨outbox_of_spares hc g, fun _ => trivial⟩) trivial

/-! ### The passes of a run -/

/-- Where the pass of a thread stands. -/
def passOf (tr : List (ℕ × Performed World Choice Cmd)) (i : ℕ) : Purging :=
  outbox.after service Purging.init (byThread i tr)

end Hivebook
