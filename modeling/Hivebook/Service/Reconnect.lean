import Hivebook.Service.Provision
import Hivebook.Workflow.Ending

/-!
# A reconnect and a disconnect in progress

A disconnect soft-deletes the row of the connection and then signals its workflow; a reconnect
brings the row back and then signals its workflow.  The workflow that is told to end ends later,
and until it does it takes every signal.  Where the two come one after the other, a live connection
has a workflow and its catalog is discovered.  Where they do not, the workflow that is about to end
takes the signal that was to start the next one, or the late signal of the disconnect ends the
workflow of the reconnected connection.

## Main definitions

* `Database.hasLive` — a connection that is not soft-deleted.
* `awaits`, `exposed`, `owed` — what is under way: a row that was upserted and not provisioned, a
  live connection that nobody is about to provision, a catalog refresh not acted on.
* `succeeds`, `leavesAlone` — the steps of the runs, and those that leave a reconnect alone.
* `Attended` — the invariant.
* `Quiescent`, `NotSwallowed` — the end of a run, and what is asked of it.

## Main results

* `Attended.step` — a step that leaves a reconnect alone keeps the invariant.
* `reconnect_not_swallowed` — **a reconnect is not swallowed** in runs of such steps, and
  `not_reconnect_not_swallowed` — not otherwise.
-/

namespace Hivebook

open Connectors Database

/-! ### Live connections -/

/-- The connection is there, and is not soft-deleted. -/
def Database.hasLive (db : Database) (id : Uuid) : Bool :=
  db.connections.rows.any fun c => decide (c.id = id) && c.deletedAt.isNone

theorem hasLive_iff {db : Database} {id : Uuid} :
    db.hasLive id = true ↔ ∃ st, db.standing id = some (st, false) := by
  simp only [Database.hasLive, List.any_eq_true, Bool.and_eq_true, decide_eq_true_eq]
  constructor
  · rintro ⟨c, hc, hid, hnone⟩
    refine ⟨c.status, ?_⟩
    rw [standing_of_mem hc hid, Option.isNone_iff_eq_none.mp hnone]
    rfl
  · rintro ⟨st, hst⟩
    obtain ⟨c, hc, hid, heq⟩ := exists_of_standing hst
    have hnone : c.deletedAt.isSome = false := (Prod.mk.inj heq).2.symm
    exact ⟨c, hc, hid, by simpa using hnone⟩

/-- An upsert answers with the row of its key. -/
theorem upsertConnection_answer {p : UpsertConnectionParams} {db : Database} {c : Connection}
    (hc : c ∈ (upsertConnection p db).2.connections.rows) (hkey : c.key = (p.new 0).key) :
    (upsertConnection p db).1 = .ok c := by
  have hfound : ((upsertConnection p db).2.connections.rows.find? fun c =>
      decide (c.key = (p.new 0).key)).isSome = true :=
    List.find?_isSome.mpr ⟨c, hc, decide_eq_true hkey⟩
  obtain ⟨c', hc'⟩ := Option.isSome_iff_exists.mp hfound
  have hkey' : c'.key = (p.new 0).key := by simpa using List.find?_some hc'
  have heq : c' = c := (upsertConnection p db).2.connections.eq_of_key
    (List.mem_of_find?_eq_some hc') hc (hkey'.trans hkey.symm)
  show one ((upsertConnection p db).2.connections.rows.find? _) = _
  rw [hc', heq]
  rfl

/-- **Only a reconnect brings a connection back**, and it is answered with its row. -/
theorem hasLive_exec {db : Database} {id : Uuid} {now : Time} {s : Statement}
    (hlive : (s.exec now db).2.hasLive id = true) (hno : db.hasLive id = false) :
    ∃ p, s = .upsertConnection p ∧ ∃ row, (upsertConnection p db).1 = .ok row ∧ row.id = id := by
  have hbefore : ∀ st, db.standing id ≠ some (st, false) := by
    intro st hst
    rw [hasLive_iff.mpr ⟨st, hst⟩] at hno
    cases hno
  obtain ⟨st, hst⟩ := hasLive_iff.mp hlive
  rcases @standing_exec db id now s with hsame | hmoves
  · rw [hsame] at hst
    exact absurd hst (hbefore st)
  · -- every other move keeps the connection deleted, or deletes it
    cases hmoves with
    | upsertConnection p c hc hid hkey _ =>
      exact ⟨p, rfl, c, upsertConnection_answer hc hkey, hid⟩
    | deleteConnection tenantID hst' =>
      rw [hst'] at hst
      cases hst
    | setNeedsReauth text st₀ deleted hst₀ hst' =>
      rw [hst'] at hst
      cases hst
      exact absurd hst₀ (hbefore _)
    | setConnectionStatus st' text st₀ deleted hst₀ hst' =>
      rw [hst'] at hst
      cases hst
      exact absurd hst₀ (hbefore _)
    | setConnectionSettled st' st₀ deleted hst₀ hst' =>
      rw [hst'] at hst
      cases hst
      exact absurd hst₀ (hbefore _)
    | startRunConnection st₀ deleted _ _ hst₀ hst' =>
      rw [hst'] at hst
      cases hst
      exact absurd hst₀ (hbefore _)

/-! ### What is under way -/

/-- One step of a run. -/
abbrev HubStep := Performed Hub Choice HubCmd

/-- A state of the jobs. -/
abbrev HubPool := Machine.Pool Hub HubCmd HubCmd.Resp Unit

/-- What the workflow does when it is resumed. -/
def Workflow.actionsOf (e : Workflow.Event) (last : Option Workflow.State) :
    List Workflow.Action :=
  (last.bind fun s => (Workflow.step s e).map Prod.snd).getD []

/-- A catalog refresh is sent to the workflow of the connection. -/
def refreshes (id : Uuid) (l : HubStep) : Bool :=
  match l.cmd with
  | .service (.signalWorkflow id' .refreshCatalog) =>
      decide (id' = id) && l.choice.takesEffect l.cancelled
  | _ => false

/-- The workflow starts to discover the catalog. -/
def discovers (l : HubStep) : Bool :=
  match l.cmd with
  | .resume e => decide (.started .discoverUnits ∈ Workflow.actionsOf e l.state.workflow)
  | .service _ => false

/-- A catalog refresh was sent, and the catalog has not been discovered since. -/
def owed (id : Uuid) (tr : List (ℕ × HubStep)) : Bool :=
  stillPending (fun l => refreshes id l.2) (fun l => discovers l.2) tr

section Runs

variable (id : Uuid) (tenantID connectorID : String)

/-- The row a job has upserted and has not provisioned yet. -/
def awaits (tr : List (ℕ × HubStep)) (i : ℕ) : Option Uuid :=
  hubProvisioning.after (hub id tenantID connectorID) none (byThread i tr)

/-- The connection is live, and no other job than `i` is about to provision it. -/
def exposed (tr : List (ℕ × HubStep)) (i : ℕ) (w : Hub) : Bool :=
  w.world.db.hasLive id && !tr.any fun l =>
    decide (l.1 ≠ i) && decide (awaits id tenantID connectorID tr l.1 = some id)

/-- The steps of the runs: the statement and the signal of a reconnect succeed, the workflow is
resumed by what can resume it, and nobody else tells it to end. -/
def succeeds (x : Choice) (cancelled : Bool) (w : Hub) : HubCmd → Bool
  | .service (.statement (.upsertConnection _)) =>
      !x.takesEffect cancelled || decide (x.outcome = .applied)
  | .service (.signalWorkflow _ .refreshCatalog) => x.takesEffect cancelled
  | .resume e =>
      decide (e ≠ .signal .disconnect) && w.workflow.any fun s => (Workflow.step s e).isSome
  | _ => true

/-- The steps that leave a reconnect alone.  While the connection is exposed no disconnect is sent
to its workflow, a catalog refresh does not find it about to end, and the workflow does not end;
while a catalog refresh is owed the workflow does not drop it. -/
def leavesAlone (exposed owed : Bool) (x : Choice) (cancelled : Bool) (w : Hub) : HubCmd → Bool
  | .service (.signalWorkflow id' .disconnect) =>
      !(exposed && decide (id' = id) && x.takesEffect cancelled)
  | .service (.signalWorkflow id' .refreshCatalog) =>
      !(exposed && decide (id' = id) && w.workflow.any fun s => !s.control.ended && s.leaving)
  | .resume e =>
      !(exposed && w.workflow.any fun s => s.endsOn e) &&
        !(owed && w.workflow.any fun s => s.dropsOn e)
  | _ => true

/-! ### The invariant -/

/-- A live connection is about to be provisioned, or its workflow runs and is not about to end; a
catalog refresh that is owed is in the buffer of a running workflow. -/
structure Attended (w : Hub) (tr : List (ℕ × HubStep)) : Prop where
  wf : ∀ s, w.workflow = some s → Workflow.Wf s
  attended : w.world.db.hasLive id = true →
    (∀ i, awaits id tenantID connectorID tr i ≠ some id) →
    ∃ s, w.workflow = some s ∧ s.control.ended = false ∧ s.leaving = false
  refresh : owed id tr = true →
    ∃ s, w.workflow = some s ∧ s.control.ended = false ∧ 0 < s.signals .refreshCatalog

end Runs

section Runs

variable {id : Uuid} {tenantID connectorID : String} {w : Hub} {tr : List (ℕ × HubStep)} {i : ℕ}
  {x : Choice} {b : Bool} {l : HubStep}

theorem awaits_snoc_self : awaits id tenantID connectorID (tr ++ [(i, l)]) i =
    hubProvisioning.next (awaits id tenantID connectorID tr i) l.cmd
      ((hub id tenantID connectorID).perform l.choice l.cancelled l.state l.cmd).2 := by
  unfold awaits
  rw [byThread_snoc_self, Protocol.after_snoc]

theorem awaits_snoc_of_ne {j : ℕ} (h : i ≠ j) : awaits id tenantID connectorID (tr ++ [(i, l)]) j =
    awaits id tenantID connectorID tr j := by
  unfold awaits
  rw [byThread_snoc_of_ne h]

/-- A step moves the job of its own thread and no other. -/
theorem awaits_others (h : ∀ j, awaits id tenantID connectorID (tr ++ [(i, l)]) j ≠ some id) :
    ∀ j, i ≠ j → awaits id tenantID connectorID tr j ≠ some id := by
  intro j hji
  have hj := h j
  rwa [awaits_snoc_of_ne hji] at hj

/-- Nobody was about to signal before, if nobody is now and the thread of the step was not. -/
theorem awaits_none (h : ∀ j, awaits id tenantID connectorID (tr ++ [(i, l)]) j ≠ some id)
    (hi : awaits id tenantID connectorID tr i ≠ some id) :
    ∀ j, awaits id tenantID connectorID tr j ≠ some id := by
  intro j
  by_cases hji : i = j
  · rw [← hji]
    exact hi
  · exact awaits_others h j hji

theorem owed_snoc : owed id (tr ++ [(i, l)]) =
    (refreshes id l || (owed id tr && !discovers l)) := by
  unfold owed stillPending
  rw [List.foldl_append]
  rfl

/-- A live connection that no other job is about to provision is exposed. -/
theorem exposed_of_live (hlive : w.world.db.hasLive id = true)
    (hnone : ∀ j, i ≠ j → awaits id tenantID connectorID tr j ≠ some id) :
    exposed id tenantID connectorID tr i w = true := by
  unfold exposed
  rw [hlive, Bool.true_and, Bool.not_eq_true', List.any_eq_false]
  intro l _ h
  simp only [Bool.and_eq_true, decide_eq_true_eq] at h
  exact hnone l.1 (Ne.symm h.1) h.2

/-- What only the connect flows and their signals move. -/
theorem next_provisioning {g : Option Uuid} {c : Cmd} (hc : c.upsertsNothing = true)
    (hsignal : ∀ id', c ≠ .signalWorkflow id' .refreshCatalog) (r : c.Resp) :
    provisioning.next g c r = g := by
  cases c with
  | statement s => cases s <;> first | rfl | cases hc
  | signalWorkflow id' x => cases x <;> first | rfl | exact absurd rfl (hsignal id')
  | _ => rfl

/-- A command that is neither an upsert nor a catalog refresh moves no job. -/
theorem awaits_aside {c : Cmd} (hc : c.upsertsNothing = true)
    (hsignal : ∀ id', c ≠ .signalWorkflow id' .refreshCatalog)
    (hi : awaits id tenantID connectorID (tr ++ [(i, ⟨w, .service c, b, x⟩)]) i ≠ some id) :
    awaits id tenantID connectorID tr i ≠ some id := by
  rw [awaits_snoc_self] at hi
  have hnext : hubProvisioning.next (awaits id tenantID connectorID tr i) (.service c)
      ((hub id tenantID connectorID).perform x b w (.service c)).2 =
        awaits id tenantID connectorID tr i := next_provisioning hc hsignal _
  rwa [hnext] at hi

/-- A workflow that can be resumed is. -/
theorem resumed_some {s s' : Workflow.State} {e : Workflow.Event} {as : List Workflow.Action}
    (h : Workflow.step s e = some (s', as)) : Workflow.resumed e (some s) = some s' := by
  simp [Workflow.resumed, h]

theorem actionsOf_some {s s' : Workflow.State} {e : Workflow.Event} {as : List Workflow.Action}
    (h : Workflow.step s e = some (s', as)) : Workflow.actionsOf e (some s) = as := by
  simp [Workflow.actionsOf, h]

/-- A running workflow takes a signal. -/
theorem step_signal {s : Workflow.State} (hrun : s.control.ended = false) (y : Workflow.Signal) :
    ∃ s', Workflow.step s (.signal y) = some (s', []) ∧ s'.signals y = s.signals y + 1 := by
  refine ⟨_, by simp [Workflow.step, hrun]; rfl, ?_⟩
  simp

/-- The workflow that takes the signal of a sender that starts one if need be. -/
theorem existing_spec {fresh : Workflow.State} (last : Option Workflow.State)
    (hfresh : fresh.control.ended = false) : (Workflow.existing fresh last).control.ended = false ∧
      (Workflow.existing fresh last = fresh ∨ last = some (Workflow.existing fresh last)) := by
  cases last with
  | none => exact ⟨hfresh, .inl rfl⟩
  | some s =>
    unfold Workflow.existing
    dsimp only
    by_cases hend : s.control.ended = true
    · rw [if_pos hend]
      exact ⟨hfresh, .inl rfl⟩
    · rw [if_neg hend]
      exact ⟨by simpa using hend, .inr rfl⟩

theorem existing_of_running {fresh s : Workflow.State} (hrun : s.control.ended = false) :
    Workflow.existing fresh (some s) = s := by
  unfold Workflow.existing
  dsimp only
  rw [if_neg (by simp [hrun])]

namespace Attended

/-- A step that leaves the workflow alone. -/
theorem of_same (h : Attended id tenantID connectorID w tr) {w' : Hub}
    (hworkflow : w'.workflow = w.workflow)
    (hlive : w'.world.db.hasLive id = true →
      awaits id tenantID connectorID (tr ++ [(i, l)]) i ≠ some id →
      w.world.db.hasLive id = true ∧ awaits id tenantID connectorID tr i ≠ some id)
    (howed : refreshes id l = false) : Attended id tenantID connectorID w' (tr ++ [(i, l)]) := by
  refine ⟨?_, fun hlive' hnone => ?_, fun howes => ?_⟩
  · rw [hworkflow]
    exact h.wf
  · rw [hworkflow]
    obtain ⟨hbefore, hi⟩ := hlive hlive' (hnone i)
    exact h.attended hbefore (awaits_none hnone hi)
  · rw [hworkflow]
    rw [owed_snoc, howed, Bool.false_or, Bool.and_eq_true] at howes
    exact h.refresh howes.1

/-- The workflow is resumed. -/
theorem resume (h : Attended id tenantID connectorID w tr) {e : Workflow.Event}
    (hsucceeds : succeeds x b w (.resume e) = true)
    (hleavesAlone : leavesAlone id (exposed id tenantID connectorID tr i w) (owed id tr) x b w
      (.resume e) = true) :
    Attended id tenantID connectorID ((hub id tenantID connectorID).perform x b w (.resume e)).1
      (tr ++ [(i, ⟨w, .resume e, b, x⟩)]) := by
  simp only [succeeds, Bool.and_eq_true, decide_eq_true_eq, Option.any_eq_true] at hsucceeds
  obtain ⟨he, s, hs, hstep⟩ := hsucceeds
  obtain ⟨⟨s', as⟩, hstep⟩ := Option.isSome_iff_exists.mp hstep
  simp only [leavesAlone, hs, Option.any_some, Bool.and_eq_true, Bool.not_eq_true',
    Bool.and_eq_false_iff] at hleavesAlone
  obtain ⟨hends, hdrops⟩ := hleavesAlone
  have hwf := h.wf s hs
  have hafter : ((hub id tenantID connectorID).perform x b w (.resume e)).1.workflow = some s' := by
    show Workflow.resumed e w.workflow = some s'
    rw [hs]
    exact resumed_some hstep
  refine ⟨?_, fun hlive hnone => ?_, fun howes => ?_⟩
  · rw [hafter]
    rintro s'' ⟨⟩
    exact Workflow.step_wf hwf hstep
  · have hi : awaits id tenantID connectorID tr i ≠ some id := by
      have hi := hnone i
      rwa [awaits_snoc_self] at hi
    have hbefore := awaits_none hnone hi
    -- nobody is about to signal, so the step must not end the workflow
    have hexposed : exposed id tenantID connectorID tr i w = true :=
      exposed_of_live hlive fun j _ => hbefore j
    obtain ⟨s₀, hs₀, hrun, hstay⟩ := h.attended hlive hbefore
    rw [hs] at hs₀
    cases hs₀
    have hend : s.endsOn e = false := hends.resolve_left (by simp [hexposed])
    exact ⟨s', hafter, Workflow.step_stays hwf hstep hrun hstay he hend⟩
  · rw [owed_snoc] at howes
    simp only [refreshes, discovers, hs, actionsOf_some hstep, Bool.false_or, Bool.and_eq_true,
      Bool.not_eq_true', decide_eq_false_iff_not] at howes
    obtain ⟨howed, hnot⟩ := howes
    obtain ⟨s₀, hs₀, hrun, hsig⟩ := h.refresh howed
    rw [hs] at hs₀
    cases hs₀
    have hdrop : s.dropsOn e = false := hdrops.resolve_left (by simp [howed])
    obtain ⟨hrun', hkept⟩ := Workflow.step_keepsRefresh hwf hstep hrun hsig hdrop
    exact ⟨s', hafter, hrun', hkept.resolve_right hnot⟩

/-- A disconnect signals the workflow. -/
theorem disconnect (h : Attended id tenantID connectorID w tr) (heffect : x.takesEffect b = true)
    (hleavesAlone : leavesAlone id (exposed id tenantID connectorID tr i w) (owed id tr) x b w
      (.service (.signalWorkflow id .disconnect)) = true) :
    Attended id tenantID connectorID
      ((hub id tenantID connectorID).perform x b w
        (.service (.signalWorkflow id .disconnect))).1
      (tr ++ [(i, ⟨w, .service (.signalWorkflow id .disconnect), b, x⟩)]) := by
  have hdb : ((hub id tenantID connectorID).perform x b w
      (.service (.signalWorkflow id .disconnect))).1.world.db = w.world.db := service_db _ _ _ _
  have hafter : ((hub id tenantID connectorID).perform x b w
      (.service (.signalWorkflow id .disconnect))).1.workflow =
        Workflow.resumed (.signal .disconnect) w.workflow := by
    show (if _ then (if id = id then _ else _) else _) = _
    rw [if_pos heffect, if_pos rfl]
    rfl
  -- no live connection is without a job that is about to signal
  have hexposed : exposed id tenantID connectorID tr i w = false := by
    simpa [leavesAlone, heffect] using hleavesAlone
  refine ⟨?_, fun hlive hnone => ?_, fun howes => ?_⟩
  · rw [hafter]
    intro s'' hs''
    obtain ⟨s, hs, rfl⟩ := Option.map_eq_some_iff.mp hs''
    cases hstep : Workflow.step s (.signal .disconnect) with
    | none => exact h.wf s hs
    | some r => exact Workflow.step_wf (h.wf s hs) hstep
  · rw [hdb] at hlive
    rw [exposed_of_live hlive (awaits_others hnone)] at hexposed
    cases hexposed
  · rw [owed_snoc] at howes
    obtain ⟨howed, -⟩ := Bool.and_eq_true_iff.mp howes
    obtain ⟨s, hs, hrun, hsig⟩ := h.refresh howed
    obtain ⟨s', hstep, -⟩ := step_signal hrun .disconnect
    obtain ⟨hrun', hkept⟩ := Workflow.step_keepsRefresh (h.wf s hs) hstep hrun hsig rfl
    refine ⟨s', ?_, hrun', hkept.resolve_right List.not_mem_nil⟩
    rw [hafter, hs]
    exact resumed_some hstep

/-- Another sender signals the workflow, which is started if need be. -/
theorem signal (h : Attended id tenantID connectorID w tr) {y : Workflow.Signal}
    (hy : y ≠ .disconnect) (heffect : x.takesEffect b = true)
    (hleavesAlone : leavesAlone id (exposed id tenantID connectorID tr i w) (owed id tr) x b w
      (.service (.signalWorkflow id y)) = true) :
    Attended id tenantID connectorID
      ((hub id tenantID connectorID).perform x b w (.service (.signalWorkflow id y))).1
      (tr ++ [(i, ⟨w, .service (.signalWorkflow id y), b, x⟩)]) := by
  have hdb : ((hub id tenantID connectorID).perform x b w
      (.service (.signalWorkflow id y))).1.world.db = w.world.db := service_db _ _ _ _
  -- the signal reaches the workflow that runs, or else the one that it starts
  obtain ⟨fresh, hfreshWf, hfresh, hstay, hafter⟩ : ∃ fresh : Workflow.State,
      Workflow.Wf fresh ∧ fresh.control.ended = false ∧ fresh.leaving = false ∧
      ((hub id tenantID connectorID).perform x b w (.service (.signalWorkflow id y))).1.workflow =
        Workflow.resumed (.signal y) (some (Workflow.existing fresh w.workflow)) := by
    refine ⟨.fresh id tenantID connectorID
      (service.perform x b w.world (.signalWorkflow id y)).1.now, rfl, rfl, rfl, ?_⟩
    show (if _ then Cmd.reaches id tenantID connectorID _ w.workflow (.signalWorkflow id y)
      else _) = _
    rw [if_pos heffect]
    cases y with
    | disconnect => exact absurd rfl hy
    | _ => exact if_pos rfl
  obtain ⟨hrun, hwhich⟩ := existing_spec w.workflow hfresh
  obtain ⟨s', hstep, hsig⟩ := step_signal hrun y
  rw [resumed_some hstep] at hafter
  have hwf : Workflow.Wf (Workflow.existing fresh w.workflow) := by
    rcases hwhich with heq | hlast
    · rw [heq]
      exact hfreshWf
    · exact h.wf _ hlast
  refine ⟨?_, fun hlive hnone => ?_, fun howes => ?_⟩
  · rw [hafter]
    rintro s'' ⟨⟩
    exact Workflow.step_wf hwf hstep
  · rw [hdb] at hlive
    have hnot : (Workflow.existing fresh w.workflow).leaving = false := by
      by_cases hrefresh : y = .refreshCatalog
      · -- the reconnect finds no workflow that is about to end
        subst hrefresh
        rcases hwhich with heq | hlast
        · rw [heq]
          exact hstay
        · have hexposed := exposed_of_live hlive (awaits_others hnone)
          rw [hexposed] at hleavesAlone
          unfold leavesAlone at hleavesAlone
          rw [hlast] at hleavesAlone
          simpa [hrun] using hleavesAlone
      · have hi : awaits id tenantID connectorID tr i ≠ some id := by
          refine awaits_aside rfl (fun id' heq => ?_) (hnone i)
          cases heq
          exact hrefresh rfl
        obtain ⟨s, hs, hsrun, hsstay⟩ := h.attended hlive (awaits_none hnone hi)
        rw [hs, existing_of_running hsrun]
        exact hsstay
    refine ⟨s', hafter, Workflow.step_stays hwf hstep hrun hnot ?_ rfl⟩
    intro heq
    cases heq
    exact hy rfl
  · refine ⟨s', hafter, Workflow.step_running hwf hstep hrun rfl, ?_⟩
    by_cases hrefresh : y = .refreshCatalog
    · subst hrefresh
      rw [hsig]
      exact Nat.succ_pos _
    · have hsends : refreshes id ⟨w, .service (.signalWorkflow id y), b, x⟩ = false := by
        cases y <;> first | rfl | exact absurd rfl hrefresh
      rw [owed_snoc, hsends, Bool.false_or] at howes
      obtain ⟨s, hs, hsrun, hssig⟩ := h.refresh (Bool.and_eq_true_iff.mp howes).1
      rw [hs, existing_of_running hsrun] at hstep
      obtain ⟨-, hkept⟩ := Workflow.step_keepsRefresh (h.wf s hs) hstep hsrun hssig rfl
      exact hkept.resolve_right List.not_mem_nil

/-- A command that leaves the connections and the workflow alone, and provisions nothing. -/
theorem aside (h : Attended id tenantID connectorID w tr) {c : Cmd}
    (hworkflow : ((hub id tenantID connectorID).perform x b w (.service c)).1.workflow = w.workflow)
    (hdb : (service.perform x b w.world c).1.db = w.world.db)
    (hsignal : awaits id tenantID connectorID (tr ++ [(i, ⟨w, .service c, b, x⟩)]) i ≠ some id →
      awaits id tenantID connectorID tr i ≠ some id)
    (howed : refreshes id ⟨w, .service c, b, x⟩ = false) :
    Attended id tenantID connectorID ((hub id tenantID connectorID).perform x b w (.service c)).1
      (tr ++ [(i, ⟨w, .service c, b, x⟩)]) := by
  refine h.of_same hworkflow (fun hlive hi => ⟨?_, hsignal hi⟩) howed
  replace hlive : (service.perform x b w.world c).1.db.hasLive id = true := hlive
  rwa [hdb] at hlive

/-- A statement: a connection that comes back is about to be provisioned. -/
theorem statement (h : Attended id tenantID connectorID w tr) {s : Statement}
    (hallowed : hubProvisioning.allowed (awaits id tenantID connectorID tr i)
      (.service (.statement s)))
    (hsucceeds : succeeds x b w (.service (.statement s)) = true) :
    Attended id tenantID connectorID
      ((hub id tenantID connectorID).perform x b w (.service (.statement s))).1
      (tr ++ [(i, ⟨w, .service (.statement s), b, x⟩)]) := by
  have hworkflow : ((hub id tenantID connectorID).perform x b w
      (.service (.statement s))).1.workflow = w.workflow := by
    show (if _ then w.workflow else w.workflow) = w.workflow
    exact ite_self _
  refine h.of_same hworkflow (fun hlive hi => ?_) rfl
  replace hlive : (service.perform x b w.world (.statement s)).1.db.hasLive id = true := hlive
  rw [service_db] at hlive
  by_cases hbefore : w.world.db.hasLive id = true
  · refine ⟨hbefore, fun heq => ?_⟩
    by_cases hs : (Cmd.statement s).upsertsNothing = true
    · refine awaits_aside hs (fun id' heq' => ?_) hi heq
      cases heq'
    · -- a job that is about to provision a row upserts no other
      have hnone : awaits id tenantID connectorID tr i = none := by
        cases s <;> first | exact absurd rfl hs | exact hallowed
      rw [hnone] at heq
      cases heq
  · -- the connection comes back, and the job is about to provision it
    rw [Bool.not_eq_true] at hbefore
    exfalso
    by_cases heffect : x.takesEffect b = true
    · dsimp only at hlive
      rw [if_pos heffect] at hlive
      obtain ⟨p, rfl, row, hrow, hid⟩ := hasLive_exec hlive hbefore
      -- an upsert that takes effect is answered with its row
      have happlied : x.outcome = .applied := by
        have happlied : (!x.takesEffect b || decide (x.outcome = .applied)) = true := hsucceeds
        rw [heffect, Bool.not_true, Bool.false_or] at happlied
        exact of_decide_eq_true happlied
      refine hi ?_
      rw [awaits_snoc_self]
      have hanswer : ((hub id tenantID connectorID).perform x b w
          (.service (.statement (.upsertConnection p)))).2 = .ok row := by
        show x.reply b (upsertConnection p w.world.db).1 = .ok row
        rw [hrow]
        unfold Choice.takesEffect at heffect
        unfold Choice.reply
        cases b with
        | true => cases heffect
        | false =>
          rw [happlied]
          rfl
      rw [hanswer]
      exact congrArg some hid
    · dsimp only at hlive
      rw [if_neg heffect, hbefore] at hlive
      cases hlive

/-- A signal, to this workflow or to another one. -/
theorem signals (h : Attended id tenantID connectorID w tr) {id' : Uuid} {y : Workflow.Signal}
    (hsucceeds : succeeds x b w (.service (.signalWorkflow id' y)) = true)
    (hleavesAlone : leavesAlone id (exposed id tenantID connectorID tr i w) (owed id tr) x b w
      (.service (.signalWorkflow id' y)) = true) :
    Attended id tenantID connectorID
      ((hub id tenantID connectorID).perform x b w (.service (.signalWorkflow id' y))).1
      (tr ++ [(i, ⟨w, .service (.signalWorkflow id' y), b, x⟩)]) := by
  by_cases heffect : x.takesEffect b = true
  · by_cases hid : id' = id
    · subst hid
      by_cases hy : y = .disconnect
      · subst hy
        exact h.disconnect heffect hleavesAlone
      · exact h.signal hy heffect hleavesAlone
    · -- the workflow of another connection
      refine h.aside ?_ (service_db _ _ _ _) (fun hi heq => ?_) ?_
      · show (if _ then Cmd.reaches id tenantID connectorID _ w.workflow (.signalWorkflow id' y)
          else _) = _
        rw [if_pos heffect]
        cases y <;> exact if_neg hid
      · rw [awaits_snoc_self, heq] at hi
        refine hi ?_
        cases y with
        | refreshCatalog => exact if_neg fun heq' => hid (Option.some.inj heq').symm
        | _ => rfl
      · cases y with
        | refreshCatalog =>
          show (decide (id' = id) && _) = false
          rw [decide_eq_false hid, Bool.false_and]
        | _ => rfl
  · have hy : y ≠ .refreshCatalog := by
      rintro rfl
      exact heffect hsucceeds
    refine h.aside ?_ (service_db _ _ _ _) (awaits_aside rfl fun id'' heq => ?_) ?_
    · exact if_neg heffect
    · cases heq
      exact hy rfl
    · cases y <;> first | rfl | exact absurd rfl hy

/-- **A step that leaves a reconnect alone keeps the invariant.** -/
theorem step (h : Attended id tenantID connectorID w tr) {cmd : HubCmd}
    (hallowed : hubProvisioning.allowed (awaits id tenantID connectorID tr i) cmd)
    (hsucceeds : succeeds x b w cmd = true)
    (hleavesAlone : leavesAlone id (exposed id tenantID connectorID tr i w) (owed id tr) x b w
      cmd = true) :
    Attended id tenantID connectorID ((hub id tenantID connectorID).perform x b w cmd).1
      (tr ++ [(i, ⟨w, cmd, b, x⟩)]) := by
  cases cmd with
  | resume e => exact h.resume hsucceeds hleavesAlone
  | service c =>
    cases c with
    | statement s => exact h.statement hallowed hsucceeds
    | signalWorkflow id' y => exact h.signals hsucceeds hleavesAlone
    | _ =>
      refine h.aside (ite_self _) (service_db _ _ _ _) (awaits_aside rfl fun id' heq => ?_) rfl
      cases heq

end Attended

end Runs

/-! ### The runs -/

/-- The workflow has ended, or it is parked and has nothing to read. -/
def Workflow.State.resting (s : Workflow.State) : Bool :=
  s.control.ended || match s.control with
    | .idle _ => Workflow.drainOrder.all fun y => decide (s.signals y = 0)
    | _ => false

/-- Every job has returned, and the workflow rests. -/
def Quiescent (s : HubPool) : Prop :=
  s.returned ∧ ∀ st, s.world.workflow = some st → st.resting = true

section Runs

variable (id : Uuid) (tenantID connectorID : String)

/-- **A reconnect is not swallowed**: a live connection has a running workflow, and every catalog
refresh that was sent to it has been followed by a discovery. -/
structure NotSwallowed (s : HubPool) (tr : List (ℕ × HubStep)) : Prop where
  running : (∃ c ∈ s.world.world.db.connections.rows, c.id = id ∧ c.deletedAt = none) →
    ∃ st, s.world.workflow = some st ∧ st.control.ended = false
  discovered : ∀ pre l post, tr = pre ++ l :: post → refreshes id l.2 = true →
    ∃ l' ∈ post, discovers l'.2 = true

/-- Before the jobs: the workflow of a live connection runs, and is not about to end. -/
structure Served (w : Hub) : Prop where
  wf : ∀ s, w.workflow = some s → Workflow.Wf s
  served : w.world.db.hasLive id = true →
    ∃ s, w.workflow = some s ∧ s.control.ended = false ∧ s.leaving = false

/-- Reconnects succeed. -/
def Succeeding (s : HubPool) (e : Machine.PoolEvent HubJob Choice) : Prop :=
  Machine.poolCheck succeeds s e = true

/-- Reconnects are left alone. -/
def LeftAlone (s : HubPool) (tr : List (ℕ × HubStep)) (e : Machine.PoolEvent HubJob Choice) :
    Prop :=
  Machine.poolCheck (leavesAlone id (exposed id tenantID connectorID tr e.thread s.world)
    (owed id tr)) s e = true

end Runs

section Runs

variable {id : Uuid} {tenantID connectorID : String}

/-- A workflow that rests and still runs has nothing to read. -/
theorem signals_of_resting {st : Workflow.State} (hrest : st.resting = true)
    (hrun : st.control.ended = false) : st.signals .refreshCatalog = 0 := by
  unfold Workflow.State.resting at hrest
  rw [hrun, Bool.false_or] at hrest
  split at hrest
  · have hall := List.all_eq_true.mp hrest .refreshCatalog (by decide)
    exact of_decide_eq_true hall
  · cases hrest

/-- With nothing owed every catalog refresh has been followed by a discovery. -/
theorem discovered_of_not_owed {tr : List (ℕ × HubStep)} (h : owed id tr = false)
    (pre : List (ℕ × HubStep)) (l : ℕ × HubStep) (post : List (ℕ × HubStep))
    (heq : tr = pre ++ l :: post) (hl : refreshes id l.2 = true) :
    ∃ l' ∈ post, discovers l'.2 = true := by
  by_contra hno
  have howed : owed id tr = true := by
    refine (stillPending_iff tr).mpr ⟨pre, l, post, heq, hl, fun l' hl' => ⟨False.elim, ?_⟩⟩
    exact fun hd => hno ⟨l', hl', hd⟩
  rw [howed] at h
  cases h

/-- **A reconnect is not swallowed** in any run whose steps leave reconnects alone. -/
theorem reconnect_not_swallowed {a : Activities} {sv : Server} {w : Hub} (hw : Served id w)
    {es : List (Machine.PoolEvent HubJob Choice)} {s : HubPool} {tr : List (ℕ × HubStep)}
    (h : ((hub id tenantID connectorID).threads (HubJob.prog a sv)).RunWhere
      (fun s tr e => Succeeding s e ∧ LeftAlone id tenantID connectorID s tr e)
      ⟨w, []⟩ es s tr) (hquiet : Quiescent s) : NotSwallowed id s tr := by
  have hinv : Attended id tenantID connectorID s.world tr := by
    refine Machine.threads_invariant (J := Attended id tenantID connectorID) h
      (fun j => j.follows sv a) ⟨hw.wf, fun hlive _ => hw.served hlive, ?_⟩ ?_
    · intro howed
      cases howed
    · intro s tr i t cmd k b hC hth hallowed hatt
      exact hatt.step hallowed (Machine.poolMeets_of_check hC.1 cmd k b hth)
        (Machine.poolMeets_of_check hC.2 cmd k b hth)
  have hnone : ∀ i, awaits id tenantID connectorID tr i ≠ some id := by
    -- a job that has returned has provisioned what it upserted
    intro i
    have hlogged := Machine.threads_log h
    cases hth : s.threads[i]? with
    | none =>
      have hnil : byThread i tr = [] := by
        refine List.eq_nil_iff_forall_not_mem.mpr fun l hl => ?_
        have hlt := hlogged.1 _ (mem_of_mem_byThread hl)
        rw [List.getElem?_eq_getElem hlt] at hth
        cases hth
      unfold awaits
      rw [hnil]
      exact Option.some_ne_none id ∘ Eq.symm
    | some th =>
      obtain ⟨job, hlog⟩ := hlogged.2 i th hth
      obtain ⟨u, hu⟩ := hquiet.1 th (List.mem_of_getElem? hth)
      rw [hu] at hlog
      have hend : awaits id tenantID connectorID tr i = none := hlog.follows (job.follows sv a)
      rw [hend]
      exact Option.some_ne_none id ∘ Eq.symm
  refine ⟨?_, discovered_of_not_owed ?_⟩
  · rintro ⟨c, hc, hid, hlive⟩
    have hlive' : s.world.world.db.hasLive id = true := by
      refine hasLive_iff.mpr ⟨c.status, ?_⟩
      rw [standing_of_mem hc hid, hlive]
      rfl
    obtain ⟨st, hst, hrun, -⟩ := hinv.attended hlive' hnone
    exact ⟨st, hst, hrun⟩
  · cases howed : owed id tr with
    | false => rfl
    | true =>
      obtain ⟨st, hst, hrun, hsig⟩ := hinv.refresh howed
      rw [signals_of_resting (hquiet.2 st hst) hrun] at hsig
      cases hsig

end Runs

/-! ### Ann disconnects and reconnects her Drive -/

/-- Ann's Drive, with its workflow parked. -/
def parkedDrive : Hub where
  world := freshDrive
  workflow := some { Workflow.State.fresh 0 "acme" "gdocs" 0 with control := .idle none }

theorem parkedDrive_served : Served 0 parkedDrive where
  wf := by
    rintro s ⟨⟩
    rfl
  served _ := ⟨_, rfl, rfl, rfl⟩

/-- The next commands of a job. -/
def hubTurns (i n : ℕ) : List (Machine.PoolEvent HubJob Choice) :=
  List.replicate n (.turn i ⟨false, quietly annAnswers⟩)

/-- The workflow is resumed, by the job of the given number. -/
def resumedBy (i : ℕ) (e : Workflow.Event) : List (Machine.PoolEvent HubJob Choice) :=
  .start (.resume e) :: hubTurns i 1

/-- Ann disconnects and the workflow ends; then she reconnects, and a fresh workflow discovers the
catalog and parks. -/
def disconnectThenReconnect : List (Machine.PoolEvent HubJob Choice) :=
  .start (.job (.disconnect (some "acme") 0)) :: hubTurns 0 6 ++
    resumedBy 1 (.receive .disconnect) ++
    .start (.job (.completeConnection "" "" "")) :: hubTurns 2 6 ++
    resumedBy 3 (.scheduleDone (.ok { enabled := false, intervalSeconds := 0 })) ++
    resumedBy 4 (.receive .refreshCatalog) ++ resumedBy 5 (.discoverDone (.ok 1)) ++
    resumedBy 6 (.scheduleDone (.ok { enabled := false, intervalSeconds := 0 }))

/-- Whether the run has come to its end. -/
def quiescentCheck (s : HubPool) : Bool :=
  s.allReturned && s.world.workflow.all fun st => st.resting

theorem quiescent_of_check {s : HubPool} (h : quiescentCheck s = true) : Quiescent s := by
  obtain ⟨hreturned, hrest⟩ := Bool.and_eq_true_iff.mp h
  refine ⟨Machine.Pool.returned_of_allReturned hreturned, fun st hst => ?_⟩
  rw [hst] at hrest
  exact hrest

/-- The reconnect is not swallowed when Ann waits for the disconnect to end. -/
theorem disconnectThenReconnect_not_swallowed :
    ∃ (es : List (Machine.PoolEvent HubJob Choice)) (s : HubPool) (tr : List (ℕ × HubStep)),
    ((hub 0 "acme" "gdocs").threads (HubJob.prog driveActivities driveServer)).RunWhere
      (fun s tr e => Succeeding s e ∧ LeftAlone 0 "acme" "gdocs" s tr e)
      ⟨parkedDrive, []⟩ es s tr ∧
    NotSwallowed 0 s tr ∧ Quiescent s ∧ s.world.world.db.hasLive 0 = true := by
  obtain ⟨s, tr, hrun, hend⟩ := Lts.exists_runWhere_of_any
    ((hub 0 "acme" "gdocs").threads (HubJob.prog driveActivities driveServer))
    (fun s tr e => Machine.poolCheck succeeds s e &&
      Machine.poolCheck (leavesAlone 0 (exposed 0 "acme" "gdocs" tr e.thread s.world)
        (owed 0 tr)) s e)
    ⟨parkedDrive, []⟩ disconnectThenReconnect
    (fun s _ => quiescentCheck s && s.world.world.db.hasLive 0) (by decide +kernel)
  simp only [Bool.and_eq_true] at hrun hend
  have hquiet := quiescent_of_check hend.1
  exact ⟨_, s, tr, hrun, reconnect_not_swallowed parkedDrive_served hrun hquiet, hquiet, hend.2⟩

/-- Ann disconnects, and reconnects before the workflow has read the signal. -/
def reconnectTooSoon : List (Machine.PoolEvent HubJob Choice) :=
  .start (.job (.disconnect (some "acme") 0)) :: hubTurns 0 6 ++
    .start (.job (.completeConnection "" "" "")) :: hubTurns 1 6 ++
    resumedBy 2 (.receive .disconnect)

/-- **A disconnect in progress can swallow a reconnect**: the workflow that is about to end takes
the catalog refresh, and the reconnected connection is left without a workflow. -/
theorem not_reconnect_not_swallowed : ¬ ∀ (id : Uuid) (tenantID connectorID : String)
    (a : Activities) (sv : Server) (w : Hub) (es : List (Machine.PoolEvent HubJob Choice))
    (s : HubPool) (tr : List (ℕ × HubStep)), Served id w →
    ((hub id tenantID connectorID).threads (HubJob.prog a sv)).RunWhere
      (fun s _ e => Succeeding s e) ⟨w, []⟩ es s tr →
    Quiescent s → NotSwallowed id s tr := by
  intro hall
  obtain ⟨s, tr, hrun, hend⟩ := Lts.exists_runWhere_of_any
    ((hub 0 "acme" "gdocs").threads (HubJob.prog driveActivities driveServer))
    (fun s _ e => Machine.poolCheck succeeds s e)
    ⟨parkedDrive, []⟩ reconnectTooSoon
    (fun s _ => quiescentCheck s && s.world.world.db.hasLive 0 &&
      s.world.workflow.all fun st => st.control.ended) (by decide +kernel)
  simp only [Bool.and_eq_true] at hend
  obtain ⟨⟨hquiet, hlive⟩, hended⟩ := hend
  have hkept := hall 0 "acme" "gdocs" driveActivities driveServer parkedDrive _ s tr
    parkedDrive_served hrun (quiescent_of_check hquiet)
  simp only [Database.hasLive, List.any_eq_true, Bool.and_eq_true, decide_eq_true_eq,
    Option.isNone_iff_eq_none] at hlive
  obtain ⟨st, hst, hrunning⟩ := hkept.running hlive
  rw [hst] at hended
  rw [show st.control.ended = true from hended] at hrunning
  cases hrunning

end Hivebook
