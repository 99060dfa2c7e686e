import Ummanu.E2e.SettleLaw

/-!
# Filling the slot

What the queue does while no run is in flight: the marks of newly queued cards, the cards that are declined
or wait on a budget decision, and the start of the next run. A card leaves the pending set in two ways only.
It is declined, with its mark saying so first, or it is in flight, with its entry saved there first.
-/

set_option autoImplicit false

namespace Ummanu.E2e

open Library Entry

variable {clean ready : Prop} {world : AmWorld} {memory : AmMemory} {entry target : Entry} {covered : List Entry}

/-! ### The budget -/

/-- No run is in flight, and every pending card has its mark. -/
structure Idle (clean : Prop) (world : AmWorld) (memory : AmMemory) : Prop where
  inv : Inv clean True world memory.payload
  free : memory.payload.run = none

/-- The memory is as it was, and the slot is still free. -/
def Stays (clean : Prop) (memory : AmMemory) (world' : AmWorld) (memory' : AmMemory) : Prop :=
  memory' = memory ∧ Idle clean world' memory

/-- The invariant, whether or not the pending cards have their marks. -/
abbrev Sound (clean : Prop) (world : AmWorld) (memory : AmMemory) : Prop :=
  Inv clean False world memory.payload

section Budget

variable (tick : AmTick)

theorem Idle.mem_entries (hidle : Idle clean world memory) :
    entry ∈ memory.payload.entries ↔ entry ∈ memory.payload.pending := by
  rw [Payload.mem_entries, hidle.free]
  simp

theorem Idle.of_cards (hidle : Idle clean world memory) {world' : AmWorld}
    (hinv : Inv clean True world' memory.payload) : Idle clean world' memory :=
  ⟨hinv, hidle.free⟩

/-- Saving what is no part of the queue. -/
theorem saveRest_keeps {f : Payload → Payload} (hinv : Inv clean ready world memory.payload)
    (hwatch : (f memory.payload).watches = memory.payload.watches)
    (hpend : (f memory.payload).pending = memory.payload.pending)
    (hrun : (f memory.payload).run = memory.payload.run) :
    Keeps clean (savePayload f)
      (fun _ world' memory' ↦ Inv clean ready world' memory'.payload ∧
        memory'.payload = f memory.payload ∧ world'.cards = world.cards) world memory := by
  have hslot : SlotOk world.board (f memory.payload).run := hrun ▸ hinv.slot
  have hready : ready → ∀ entry ∈ (f memory.payload).pending, entry.marked = true :=
    hpend ▸ hinv.ready
  refine (savePayload_keeps hinv (hinv.memory.congr hwatch hpend hrun) hslot hready
    fun hcln ↦ (hinv.held hcln).2.congr hwatch hpend hrun).mono ?_
  rintro _ _ _ ⟨rfl, rfl, hnext⟩
  exact ⟨hnext, rfl, rfl⟩

section

variable (hidle : Idle clean world memory)
include hidle

theorem Idle.saveWaits {f : List BudgetHold → List BudgetHold} :
    Keeps clean (savePayload fun payload ↦ { payload with budgetWaits := f payload.budgetWaits })
      (fun _ world' memory' ↦ Idle clean world' memory' ∧
        memory'.payload.pending = memory.payload.pending) world memory := by
  refine (saveRest_keeps hidle.inv rfl rfl rfl).mono ?_
  rintro _ _ _ ⟨hinv, hload, -⟩
  exact ⟨⟨hinv, by rw [hload, hidle.free]⟩, by rw [hload]⟩

theorem Idle.save : Keeps clean save (fun _ ↦ Idle clean) world memory := by
  refine (save_keeps hidle.inv).mono ?_
  rintro _ _ _ ⟨-, rfl, hinv⟩
  exact hidle.of_cards hinv

theorem Idle.comment {name : RequestName} {card body : String}
    (hreq : Issuable world { name, kind := .commented, card, body }) :
    Keeps clean (comment tick name card body) (fun _ ↦ Stays clean memory) world memory := by
  refine (comment_keeps tick hidle.inv hreq).mono ?_
  rintro _ _ _ ⟨rfl, -, hinv⟩
  exact ⟨rfl, hidle.of_cards hinv⟩

/-- A pending card's mark may become anything but green or red. -/
theorem Idle.remark (hent : entry ∈ memory.payload.pending) {f : AfterMergeMark → AfterMergeMark}
    {step : String} (hedit : MarkEdit f) (hstate : ∀ mark, (f mark).state.ended = none) :
    Keeps clean (remarkOther tick step entry.ref f)
      (fun _ world' memory' ↦ memory' = memory ∧ Idle clean world' memory' ∧
        world'.board = world.board.setMark entry.ref ((world.board.mark entry.ref).map f))
      world memory := by
  have hnote : Remarks world.board memory.payload.run entry.ref f :=
    hidle.free ▸ Remarks.of_idle hedit hstate
  refine (remarkOther_keeps tick hidle.inv (hidle.mem_entries.mpr hent)
    (hidle.inv.ready trivial entry hent) hnote).mono ?_
  rintro _ _ _ ⟨rfl, hinv, hboard⟩
  exact ⟨rfl, hidle.of_cards hinv, hboard⟩

/-- A pending card whose mark declines its merge leaves the pending set. -/
theorem Idle.drop {ref : String} (hdecl : ∀ entry ∈ memory.payload.pending, entry.ref = ref → ∃ mark,
      world.board.mark ref = some mark ∧ mark.state = .declined ∧ mark.mergeSha = entry.mergeSha) :
    Idle clean world { memory with payload := { memory.payload with
      pending := memory.payload.pending.filter (·.ref ≠ ref) } } := by
  have hmem : ∀ entry, entry ∈ ({ memory.payload with
      pending := memory.payload.pending.filter (·.ref ≠ ref) } : Payload).entries ↔
      entry ∈ memory.payload.pending ∧ entry.ref ≠ ref := by
    intro entry
    rw [Payload.mem_entries, hidle.free]
    simp
  refine ⟨hidle.inv.exchange (.of_subset (hidle.inv.memory.pending_once.sublist (List.filter_sublist.map _))
    (fun entry hent ↦ hidle.mem_entries.mpr ((hmem entry).mp hent).1) (fun _ hfly ↦ ?_) rfl
    fun _ entry hent ↦ ?_) rfl
    fun _ entry hent ↦ hidle.inv.ready trivial entry (List.mem_filter.mp hent).1, hidle.free⟩
  · rw [hidle.free] at hfly
    cases hfly
  have hpend := hidle.mem_entries.mp hent
  by_cases href : entry.ref = ref
  · obtain ⟨mark, hmark, hstate, hsha⟩ := hdecl entry hpend href
    exact .inr (.inr ⟨mark, (congrArg world.board.mark href).trans hmark, hstate, hsha⟩)
  · exact .inl ⟨entry, (hmem entry).mpr ⟨hpend, href⟩, rfl⟩

theorem decline_keeps (hent : entry ∈ memory.payload.pending) (text decision : String) :
    Keeps clean (decline tick entry.ref text decision)
      (fun _ world' memory' ↦ Idle clean world' memory' ∧
        memory'.payload.pending = memory.payload.pending.filter (·.ref ≠ entry.ref)) world memory := by
  refine .bind (hidle.comment tick (.rebuilt trivial ⟨rfl, rfl⟩)) ?_
  rintro _ _ memory ⟨rfl, hidle⟩
  refine .bind (hidle.remark tick hent ?_ ?_) ?_
  · exact ⟨fun _ ↦ rfl, fun _ ↦ rfl, fun _ _ ↦ rfl⟩
  · exact fun _ ↦ rfl
  rintro _ _ memory ⟨rfl, hidle', hboard⟩
  rw [keeps_editPayload]
  refine ⟨hidle'.drop fun o hoth href ↦ ?_, rfl⟩
  obtain ⟨_, hmark, hsha⟩ := hidle.inv.memory.marked entry (hidle.mem_entries.mpr hent)
    (hidle.inv.ready trivial entry hent)
  refine ⟨_, by rw [hboard, Board.setMark_mark_self, hmark, Option.map_some], rfl, ?_⟩
  obtain rfl : o = entry := List.inj_on_of_nodup_map hidle.inv.memory.pending_once hoth hent href
  exact hsha

end

/-- Several pending cards are declined, each once. -/
theorem declineEach_keeps {β : Type} {items : List β} (refOf : β → String) {text : String}
    {decision : String} (hidle : Idle clean world memory) (honce : (items.map refOf).Nodup)
    (hpend : ∀ item ∈ items, ∃ entry ∈ memory.payload.pending, entry.ref = refOf item) :
    Keeps clean (items.forM fun item ↦ decline tick (refOf item) text decision)
      (fun _ ↦ Idle clean) world memory := by
  refine (Keeps.forM (fun rest w' mem' ↦ Idle clean w' mem' ∧ (rest.map refOf).Nodup ∧
    ∀ item ∈ rest, ∃ entry ∈ mem'.payload.pending, entry.ref = refOf item) items
    ⟨hidle, honce, hpend⟩ ?_).mono fun _ _ _ hend ↦ hend.1
  rintro item rest w' mem' ⟨hidle', honce', hpend'⟩
  obtain ⟨entry, hent, href⟩ := hpend' item (by simp)
  rw [List.map_cons, List.nodup_cons] at honce'
  rw [← href]
  refine (decline_keeps tick hidle' hent text decision).mono ?_
  rintro _ _ _ ⟨hidle'', hleft⟩
  refine ⟨hidle'', honce'.2, fun o hoth ↦ ?_⟩
  obtain ⟨entry', hentry', href'⟩ := hpend' o (by simp [hoth])
  refine ⟨entry', ?_, href'⟩
  rw [hleft, List.mem_filter]
  refine ⟨hentry', ?_⟩
  have hother' : refOf o ≠ refOf item := fun hsame ↦
    honce'.1 (hsame ▸ List.mem_map_of_mem hoth)
  simpa [href, href'] using hother'

section

variable (hidle : Idle clean world memory) (spent : List String)
include hidle

theorem declineAll_keeps : Keeps clean (declineAll tick) (fun _ ↦ Idle clean) world memory := by
  refine (declineEach_keeps tick id hidle ?_ ?_).bind ?_
  · simpa using hidle.inv.memory.pending_once
  · exact fun _ href ↦ List.mem_map.mp href
  exact fun _ _ _ hidle' ↦ hidle'.save

/-- A decision card that is not open yet. -/
theorem Idle.openDecision {request : Request} {f : Request → String}
    (hfresh : world.committed.find? (·.name = request.name) = none)
    (hice : Frozen world.board (world.committed ++ [request]) request) :
    Keeps clean (do let made ← issue tick request; pure (f made)) (fun _ ↦ Stays clean memory) world memory := by
  refine (issue_keeps tick hidle.inv (.of_fresh hfresh hice)).bind ?_
  rintro _ _ _ ⟨rfl, -, hinv, -⟩
  exact .pure ⟨rfl, hidle.of_cards hinv⟩

/-- A loop of comments that are built anew. -/
theorem comments_keeps {items : List Entry} {f : Entry → AmProgram Unit}
    (hround : ∀ item world, Idle clean world memory →
      Keeps clean (f item) (fun _ ↦ Stays clean memory) world memory) :
    Keeps clean (items.forM f) (fun _ ↦ Stays clean memory) world memory := by
  refine .forM_mem _ ⟨rfl, hidle⟩ ?_
  rintro item - w' _ ⟨rfl, hidle'⟩
  exact hround item w' hidle'

theorem sprintDecisionCard_keeps (sprint : String) (generation : ℕ) (waiting : List Entry) :
    Keeps clean (sprintDecisionCard tick sprint generation waiting)
      (fun _ ↦ Stays clean memory) world memory := by
  rw [sprintDecisionCard, keeps_stored]
  split
  · refine .bind (comments_keeps hidle fun entry w' hidle' ↦ ?_) ?_
    · cases tick.decisionLists entry.ref with
      | error error => exact .throw hidle'.inv
      | ok listed =>
        cases listed with
        | true => exact .pure ⟨rfl, hidle'⟩
        | false =>
          exact hidle'.comment tick (.rebuilt trivial ⟨rfl, rfl⟩)
    · exact fun _ w' _ hidle' ↦ .pure hidle'
  · next hnone => exact hidle.openDecision tick hnone trivial

theorem batchDecisionCard_keeps (generation : ℕ) :
    Keeps clean (batchDecisionCard tick spent generation)
      (fun _ ↦ Stays clean memory) world memory := by
  rw [batchDecisionCard, keeps_stored]
  split
  · exact .pure ⟨rfl, hidle⟩
  · next hnone => exact hidle.openDecision tick hnone trivial

theorem joinHold_keeps (hent : entry ∈ memory.payload.pending) (hold : BudgetHold) :
    Keeps clean (joinHold tick hold entry) (fun _ ↦ Stays clean memory) world memory := by
  have hlist : ∀ state, Keeps clean (listOnHold tick hold entry state)
      (fun _ ↦ Stays clean memory) world memory := by
    intro state
    rw [listOnHold]
    cases hold.scope with
    | sprint =>
      refine .bind (sprintDecisionCard_keeps tick hidle _ _ _) ?_
      exact fun _ w' _ hidle' ↦ .pure hidle'
    | cards =>
      exact hidle.comment tick (.rebuilt trivial ⟨rfl, rfl⟩)
  refine .bind (showCard_keeps tick hidle.inv) ?_
  rintro state _ _ ⟨-, rfl, rfl⟩
  refine .bind (hlist state) ?_
  rintro _ w' memory ⟨rfl, hidle'⟩
  refine .mono (hidle'.remark tick hent ?_ ?_) ?_
  · exact ⟨fun _ ↦ rfl, fun _ ↦ rfl, fun _ _ ↦ rfl⟩
  · exact fun _ ↦ rfl
  · rintro _ _ _ ⟨rfl, hlast, -⟩
    exact ⟨rfl, hlast⟩

variable (hcov : ∀ entry ∈ covered, entry ∈ memory.payload.pending)
include hcov

theorem holdBatch_keeps (hold : BudgetHold) :
    Keeps clean (holdBatch tick covered hold) (fun _ ↦ Idle clean) world memory := by
  refine .bind (hidle.saveWaits (f := fun _ ↦ [hold])) ?_
  rintro _ _ _ ⟨hidle', hpend⟩
  refine (Keeps.forM_mem (fun w'' mem'' ↦ Idle clean w'' mem'' ∧
    mem''.payload.pending = memory.payload.pending) ⟨hidle', hpend⟩ ?_).mono fun _ _ _ hend ↦ hend.1
  rintro entry hent w'' mem'' ⟨hidle'', hpend'⟩
  refine .mono (hidle''.remark tick (hpend' ▸ hcov entry hent) ?_ ?_) ?_
  · exact ⟨fun _ ↦ rfl, fun _ ↦ rfl, fun _ _ ↦ rfl⟩
  · exact fun _ ↦ rfl
  · rintro _ _ _ ⟨rfl, hlast, -⟩
    exact ⟨hlast, hpend'⟩

theorem declineBatch_keeps (honce : (covered.map ref).Nodup) (spent : List String) :
    Keeps clean (declineBatch tick covered spent) (fun _ ↦ Idle clean) world memory := by
  refine .bind (declineEach_keeps tick ref hidle honce fun entry hent ↦ ⟨entry, hcov entry hent, rfl⟩) ?_
  exact fun _ _ _ hidle' ↦ hidle'.save

theorem budgetSpent_keeps (honce : (covered.map ref).Nodup) (sprint : String) (spent : List String) :
    Keeps clean (budgetSpent tick covered sprint spent) (fun _ ↦ Idle clean) world memory := by
  rw [budgetSpent]
  split
  · refine .bind (sprintDecisionCard_keeps tick hidle _ _ _) ?_
    rintro dec w' memory ⟨rfl, hidle'⟩
    exact holdBatch_keeps tick hidle' hcov _
  · split
    · refine .bind (batchDecisionCard_keeps tick hidle _ _) ?_
      rintro dec w' memory ⟨rfl, hidle'⟩
      exact holdBatch_keeps tick hidle' hcov _
    · exact declineBatch_keeps tick hidle hcov honce spent

end

theorem joinAll_keeps {entries : List Entry} (hold : BudgetHold) (hidle : Idle clean world memory)
    (hents : ∀ entry ∈ entries, entry ∈ memory.payload.pending) :
    Keeps clean (joinAll tick hold entries) (fun _ ↦ Idle clean) world memory := by
  induction entries generalizing hold world memory with
  | nil => exact .pure hidle
  | cons entry rest ih =>
    have hrest : ∀ o ∈ rest, o ∈ memory.payload.pending := fun o hoth ↦
      hents o (by simp [hoth])
    rw [joinAll]
    split
    · exact ih hold hidle hrest
    · refine .bind (joinHold_keeps tick hidle (hents entry (by simp)) hold) ?_
      rintro _ _ memory ⟨rfl, hidle'⟩
      refine .bind (hidle'.saveWaits (f := fun waits ↦ waits.map fun o ↦
        if o = hold then { hold with cards := hold.cards ++ [entry.ref] } else o)) ?_
      rintro _ _ _ ⟨hidle'', hpend⟩
      exact ih _ hidle'' fun o hoth ↦ hpend ▸ hrest o hoth

section

variable (hidle : Idle clean world memory)
include hidle

theorem declineHold_keeps (hold : BudgetHold) (text : String) :
    Keeps clean (declineHold tick hold text) (fun _ ↦ Idle clean) world memory := by
  refine .bind (Keeps.forM_mem (Idle clean) hidle ?_) ?_
  · intro ref _ w' mem' hidle'
    rw [keeps_recallPayload]
    split
    · next hany =>
      obtain ⟨entry, hent, href⟩ := List.any_eq_true.mp hany
      obtain rfl : entry.ref = ref := by simpa using href
      exact (decline_keeps tick hidle' hent text hold.decision).mono fun _ _ _ hend ↦ hend.1
    · exact .pure hidle'
  · intro _ w' mem' hidle'
    exact (hidle'.saveWaits (f := fun waits ↦ waits.erase hold)).mono fun _ _ _ hend ↦ hend.1

theorem shortCaps_keeps (spent : List String) :
    Keeps clean (shortCaps tick spent) (fun _ ↦ Stays clean memory) world memory := by
  rw [shortCaps, keeps_stored]
  refine .bind (Keeps.forM_mem (Stays clean memory) ⟨rfl, hidle⟩ ?_) fun _ _ _ hend ↦ .pure hend
  rintro _ - _ memory ⟨rfl, hidle'⟩
  refine .bind (showCard_keeps tick hidle'.inv) ?_
  rintro _ _ _ ⟨-, rfl, rfl⟩
  exact .pure ⟨rfl, hidle'⟩

theorem holdRoom_keeps (hold : BudgetHold) :
    Keeps clean (holdRoom tick hold) (fun _ ↦ Stays clean memory) world memory := by
  rw [holdRoom]
  cases hold.scope with
  | sprint => exact .pure ⟨rfl, hidle⟩
  | cards => exact (shortCaps_keeps tick hidle hold.spent).bind fun _ _ _ hend ↦ .pure hend

theorem recheckHold_keeps (hold : BudgetHold) :
    Keeps clean (recheckHold tick hold) (fun _ ↦ Idle clean) world memory := by
  refine .bind (holdRoom_keeps tick hidle hold) ?_
  rintro _ _ _ ⟨rfl, hidle'⟩
  split
  · exact (hidle'.saveWaits (f := fun waits ↦ waits.erase hold)).mono fun _ _ _ hend ↦ hend.1
  · cases tick.decisionRead hold.decision with
    | failed _ => exact .throw hidle'.inv
    | opened =>
      dsimp only
      exact joinAll_keeps tick hold hidle' fun _ hent ↦ hent
    | done => exact declineHold_keeps tick hidle' hold _
    | missing => exact declineHold_keeps tick hidle' hold _

theorem recheckBudget_keeps :
    Keeps clean (recheckBudget tick) (fun _ ↦ Idle clean) world memory := by
  rw [recheckBudget, keeps_recallPayload]
  refine .bind (Keeps.forM_mem (Idle clean) hidle fun hold _ w' mem' hidle' ↦ recheckHold_keeps tick hidle' hold) ?_
  intro _ w' mem' hidle'
  exact .pure hidle'

end

end Budget

/-! ### Dispatching -/

section Dispatching

variable {flight : InFlight} {i : ℕ} {run : E2eRun} (project : String) (tick : AmTick)

theorem Paid.setRun {world' : AmWorld} {sprint : String} {run' : E2eRun} (hpaid : Paid world sprint run)
    (honly : OnlyCards world world')
    (hboard : world'.board = world.board.setRun flight.carrier i run') (hstep : RunStep run run') :
    Paid world' sprint run' := by
  refine ⟨fun hspr ↦ ?_, fun hspr item hitem ↦ ?_⟩
  · rw [honly, hstep.dispatchId]
    exact hpaid.1 hspr
  · rw [hboard, hstep.dispatchId]
    exact hpaid.2 hspr item (hstep.covered ▸ hitem)

/-- The dispatch call. -/
theorem dispatch_keeps (hrun : Settling clean ready flight world memory i run) {sprint : String}
    (hpaid : Paid world sprint run)
    (huns : ∀ sent ∈ world.dispatches, sent.dispatchId ≠ run.dispatchId) :
    Keeps clean (Durable.commit fun world ↦ { world with
        dispatches := world.dispatches ++ [⟨run.dispatchId, run.sha, sprint⟩] })
      (fun _ world' memory' ↦ memory' = memory ∧ Settling clean ready flight world' memory i run)
      world memory := by
  have hlog : LogOk { world with
      dispatches := world.dispatches ++ [⟨run.dispatchId, run.sha, sprint⟩] } := by
    refine { hrun.inv.log with sent_known := fun sent hsent ↦ ?_, sent_once := ?_ }
    · obtain hsent | hsent := List.mem_append.mp hsent
      · exact hrun.inv.log.sent_known sent hsent
      · rw [List.mem_singleton.mp hsent]
        exact ⟨flight.carrier, run, hrun.hand.mem, rfl⟩
    · exact nodup_map_concat hrun.inv.log.sent_once huns
  have hnext := hrun.inv.relog hlog rfl rfl rfl
  rw [Keeps, meets_commit]
  exact ⟨⟨hnext.reload, .dispatch ⟨⟨flight.carrier, hrun.hand.mem⟩, hpaid, huns, rfl⟩⟩, rfl, hrun.of_cards rfl hnext⟩

theorem RunStep.attach (hopen : run.resolution = none) (answer : DispatchAnswer) :
    RunStep run (answer.attach tick run) := by
  cases answer with
  | accepted _ =>
    rw [DispatchAnswer.attach]
    split
    · exact .of_open hopen rfl id
    · next hrunId => exact .of_open hopen rfl fun _ ↦ hrunId
  | refused detail => exact .of_open hopen rfl id
  | unanswered detail => exact .of_open hopen rfl id

theorem RunOk.attach (hrun : RunOk run) (answer : DispatchAnswer) : RunOk (answer.attach tick run) := by
  cases answer with
  | accepted _ =>
    rw [DispatchAnswer.attach]
    split <;> exact { hrun with }
  | refused detail =>
    have hdeny : RunOk { run with dispatch := .refused, dispatchDetail := tick.oneLine 1000 detail } :=
      { hrun with }
    exact hdeny.shut _
  | unanswered detail => exact { hrun with }

theorem pushAndDispatch_keeps (hrun : Settling clean ready flight world memory i run)
    (hopen : run.resolution = none) {sprint : String} (hpaid : Paid world sprint run)
    (huns : ∀ sent ∈ world.dispatches, sent.dispatchId ≠ run.dispatchId) :
    Keeps clean (pushAndDispatch tick flight.carrier i sprint)
      (fun _ world' memory' ↦ Inv clean ready world' memory'.payload ∧
        memory'.payload.run = some flight) world memory := by
  rw [pushAndDispatch]
  cases tick.createRef with
  | error detail =>
    have hdeny : RunOk { run with dispatch := .refused, dispatchDetail := tick.oneLine 1000 detail } :=
      { hrun.run_ok with }
    refine .mono (hrun.amend tick (.of_open hopen ?_ id) (hdeny.shut _))
      fun _ _ _ hend ↦ ⟨hend.1.now.inv, hend.1.now.slot⟩
    rfl
  | ok _ =>
    have hpushed : RunStep run { run with gitRefState := .created } :=
      .of_open hopen rfl id
    refine (hrun.amend tick (f := fun run ↦ { run with gitRefState := .created }) hpushed
      { hrun.run_ok with }).bind ?_
    rintro _ world' _ ⟨hmov, honly, hboard⟩
    rw [keeps_runInHand, hmov.now.carried]
    have hunsent' : ∀ sent ∈ world'.dispatches, sent.dispatchId ≠ run.dispatchId := by
      rw [honly]
      exact huns
    refine .bind (dispatch_keeps hmov.now (hpaid.setRun honly hboard hpushed) hunsent') ?_
    rintro _ _ _ ⟨rfl, hsent⟩
    have hopen' : ({ run with gitRefState := .created } : E2eRun).resolution = none := hopen
    exact (hsent.amend tick (f := tick.dispatch.attach tick) (.attach tick hopen' _)
      (hmov.now.run_ok.attach tick _)).mono fun _ _ _ hend ↦ ⟨hend.1.now.inv, hend.1.now.slot⟩

end Dispatching

/-! ### Starting a run -/

section Starting

variable (project : String) (tick : AmTick)

/-- What is covered is what compares as the target or one of its ancestors. -/
theorem coverable_eq {target : String} {entries : List Entry} (hcov : coverable tick target entries = .ok covered) :
    covered = entries.filter fun entry ↦ (isAncestor tick entry.mergeSha target).toOption = some true := by
  induction entries generalizing covered with
  | nil =>
    cases hcov
    rfl
  | cons a rest ih =>
    rw [coverable] at hcov
    cases hfst : isAncestor tick a.mergeSha target with
    | error detail =>
      rw [hfst] at hcov
      cases hcov
    | ok ans =>
      cases hrest : coverable tick target rest with
      | error detail =>
        rw [hfst, hrest] at hcov
        cases hcov
      | ok _ =>
        rw [hfst, hrest] at hcov
        cases hcov
        cases ans <;> simp [hfst, Except.toOption, ih hrest]

/-- What a run is started over: pending cards, among them the target's. -/
structure Startable (tick : AmTick) (payload : Payload) (target : Entry) (covered : List Entry) : Prop where
  pending : ∀ entry ∈ covered, entry ∈ payload.pending
  once : (covered.map Entry.ref).Nodup
  target_mem : target ∈ covered
  compared : ∀ entry ∈ covered, (isAncestor tick entry.mergeSha target.mergeSha).toOption = some true

theorem newAmRun_ok (hidle : Idle clean world memory) (hstart : Startable tick memory.payload target covered)
    (declaration : E2eDeclaration) (repo sprint : String) {id : String} (hid : id ≠ "") :
    RunOk (newAmRun tick declaration repo id target.mergeSha sprint covered) where
  id_ne_empty := hid
  sha_ne_empty :=
    (hidle.inv.memory.named target (hidle.mem_entries.mpr (hstart.pending _ hstart.target_mem))).2
  closing_of_foreign := fun hhead ↦ absurd rfl hhead
  head_of_result := nofun
  result_named := nofun
  result_of_ended := fun hended ↦ by rcases hended with hended | hended <;> cases hended
  end_of_resolved := nofun
  resolved_of_acted := nofun
  covered_named := by
    intro _ hitem
    obtain ⟨entry, hent, rfl⟩ := List.mem_map.mp hitem
    exact (hidle.inv.memory.named entry (hidle.mem_entries.mpr (hstart.pending entry hent))).1
  covered_once := by
    have hrefs : (covered.map pair).map Covered.ref = covered.map ref := by
      rw [List.map_map]
      rfl
    exact hrefs ▸ hstart.once

/-- The covered cards are saved as in flight. -/
theorem Idle.takeOff (hidle : Idle clean world memory) (flight : InFlight)
    (hpend : ∀ entry ∈ flight.entries, entry ∈ memory.payload.pending)
    (honce : (flight.entries.map ref).Nodup) (hfresh : ¬ world.board.Has flight.dispatchId) :
    Keeps clean (savePayload fun payload ↦ { payload with
        run := some flight
        pending := payload.pending.filter (· ∉ flight.entries) })
      (fun _ world' memory' ↦ Inv clean True world' memory'.payload ∧
        memory'.payload.run = some flight ∧ ∃ payload, world' = world.save payload) world memory := by
  have hmem : ∀ entry, entry ∈ ({ memory.payload with
      run := some flight
      pending := memory.payload.pending.filter (· ∉ flight.entries) } : Payload).entries ↔
      entry ∈ memory.payload.pending := by
    intro entry
    rw [Payload.mem_entries, List.mem_filter]
    simp only [decide_eq_true_eq, Option.mem_def, Option.some_inj, exists_eq_left']
    constructor
    · rintro (hent | hent)
      · exact hent.1
      · exact hpend entry hent
    · intro hent
      by_cases hcov : entry ∈ flight.entries
      · exact .inr hcov
      · exact .inl ⟨hent, hcov⟩
  have hexch : Exchange clean world.board memory.payload { memory.payload with
      run := some flight
      pending := memory.payload.pending.filter (· ∉ flight.entries) } := by
    refine .of_subset (hidle.inv.memory.pending_once.sublist (List.filter_sublist.map _))
      (fun entry hent ↦ hidle.mem_entries.mpr ((hmem entry).mp hent)) ?_ rfl
      fun _ entry hent ↦ .inl ⟨entry, (hmem entry).mpr (hidle.mem_entries.mp hent), rfl⟩
    rintro _ ⟨rfl⟩ entry hent href
    obtain ⟨hent, hleft⟩ := List.mem_filter.mp hent
    obtain ⟨o, hoth, hsame⟩ := List.mem_map.mp href
    -- one entry of the card is pending, and it is in flight now
    obtain rfl : o = entry :=
      List.inj_on_of_nodup_map hidle.inv.memory.pending_once (hpend o hoth) hent hsame
    exact absurd hoth (by simpa using hleft)
  have hslot : SlotOk world.board (some flight) := by
    refine ⟨?_, fun ref run hrun hacted ↦ ?_⟩
    · rintro _ ⟨rfl⟩
      refine ⟨honce, fun entry hent ↦ hidle.inv.ready trivial entry (hpend entry hent),
        fun run hrun ↦ ?_, fun run hrun ↦ ?_⟩
      · exact absurd ⟨flight.carrier, run, hrun⟩ hfresh
      · exact absurd ⟨flight.carrier, run, hrun⟩ hfresh
    · obtain ⟨_, hfnd, -⟩ := hidle.inv.slot.unacted ref run hrun hacted
      rw [hidle.free] at hfnd
      cases hfnd
  have hready : True → ∀ entry ∈ memory.payload.pending.filter (· ∉ flight.entries),
      entry.marked = true := fun _ entry hent ↦
    hidle.inv.ready trivial entry (List.mem_filter.mp hent).1
  refine (savePayload_exchange hidle.inv hexch hslot hready).mono ?_
  rintro _ _ _ ⟨hworld, rfl, hnext⟩
  exact ⟨hnext, rfl, _, hworld⟩

/-- What the transaction of an intent wrote. -/
structure Recorded (world written : AmWorld) (carrier sprint : String) (run : E2eRun) : Prop where
  write : IntentWrite world written carrier run
  board : written.board = world.board.withIntent carrier sprint run
  rest : written = { world with cards := written.cards, charges := written.charges }
  charges : ∀ charge ∈ written.charges, charge ∈ world.charges ∨ charge.dispatchId = run.dispatchId
  paid : Paid written sprint run

section Recording

variable {flight : InFlight} {run : E2eRun} {sprint : String} {written : AmWorld} {payload : Payload}

/-- The run of an intent is in hand, at the end of its carrier's record. -/
theorem Recorded.settling (hrec : Recorded world written flight.carrier sprint run)
    (hinv : Inv clean ready written memory.payload) (hslot : memory.payload.run = some flight)
    (hintent : IntentOk world.board flight run) :
    Settling clean ready flight written { memory with state := written.cards flight.carrier }
      (world.cards flight.carrier).afterMergeRuns.length run := by
  have hruns : written.board.runs flight.carrier = world.board.runs flight.carrier ++ [run] := by
    rw [hrec.write.runs, Function.update_self]
  have hindex : (written.board.runs flight.carrier)[(world.board.runs flight.carrier).length]? =
      some run := by
    rw [hruns, List.getElem?_concat_length]
  refine ⟨⟨hinv, hindex, RunStep.refl run, hintent.run_ok, ?_, hinv.board.mark_bind_reread _⟩, hslot, hintent.id_eq⟩
  obtain ⟨hlen, hget⟩ := List.getElem?_eq_some_iff.mp hindex
  exact (hget ▸ List.set_getElem_self hlen).symm

variable (hinv : Inv clean ready world payload) (hintent : IntentOk world.board flight run)
include hinv hintent

/-- The board's part of an intent, whoever is charged for it. -/
theorem Recorded.of_board (hboard : written.board = world.board.withIntent flight.carrier sprint run)
    (hrest : written = { world with cards := written.cards, charges := written.charges })
    (hpaid : sprint ≠ "" ∧ written.charges = world.charges ++ [⟨sprint, run.dispatchId⟩] ∨
      sprint = "" ∧ written.charges = world.charges) :
    Recorded world written flight.carrier sprint run := by
  have hfresh := hintent.fresh hinv.board
  refine ⟨⟨hfresh, fun charge hchg hid ↦ ?_, fun ref hid ↦ ?_, ?_, fun item hitem ↦ ?_, ?_, ?_⟩, hboard,
    hrest, ?_, ?_⟩
  · exact hfresh (hid ▸ hinv.log.charges_known charge hchg)
  · exact hfresh (hinv.board.charged_known ref _ hid)
  · rw [hboard]
    rfl
  · exact ⟨_, by rw [hboard, withIntent_mark_of_mem hintent.run_ok hitem], rfl, rfl, rfl, rfl⟩
  · obtain ⟨hspr, hcost⟩ | ⟨hspr, hcost⟩ := hpaid
    · refine .inl ⟨sprint, hspr, hcost, fun ref ↦ ?_⟩
      rw [hboard, withIntent_charged, if_neg fun hboth ↦ hspr hboth.1]
    · refine .inr ⟨hcost, fun ref ↦ ?_⟩
      rw [hboard, withIntent_charged]
      simp only [hspr, true_and]
  · rw [hrest]
  · intro charge hchg
    obtain ⟨-, hcost⟩ | ⟨-, hcost⟩ := hpaid
    · rw [hcost, List.mem_append, List.mem_singleton] at hchg
      exact hchg.imp id fun hnew ↦ by rw [hnew]
    · exact .inl (hcost ▸ hchg)
  · obtain ⟨hspr, hcost⟩ | ⟨hspr, hcost⟩ := hpaid
    · refine ⟨fun _ ↦ by rw [hcost]; simp, fun hnil ↦ absurd hnil hspr⟩
    · refine ⟨fun hnot ↦ absurd hspr hnot, fun _ item hitem ↦ ?_⟩
      rw [hboard, withIntent_charged, if_pos ⟨hspr, List.mem_map_of_mem hitem⟩]
      simp

/-- `record_after_merge_intent` of a run that is new. -/
theorem recordIntent_recorded (hcarry : flight.carrier ∈ run.covered.map Covered.ref)
    (hnamed : ∀ item ∈ run.covered, item.mergeSha ≠ "")
    (hwrote : world.recordIntent tick flight.carrier sprint run = .ok written) :
    Recorded world written flight.carrier sprint run := by
  rw [AmWorld.recordIntent] at hwrote
  split at hwrote
  · next hspr =>
    dsimp only at hwrote
    split at hwrote
    · cases hwrote
      have hcharged : BoardOk ({ world with
          charges := world.charges ++ [⟨sprint, run.dispatchId⟩] } : AmWorld).board := hinv.board
      exact .of_board hinv hintent (AmWorld.withIntent_board hcharged sprint hintent.run_ok hcarry hnamed) rfl
        (.inl ⟨hspr, rfl⟩)
    · split at hwrote
      · next hchg => exact absurd (hinv.log.charges_known _ hchg) (hintent.fresh hinv.board)
      · cases hwrote
  · next hspr =>
    split at hwrote
    · cases hwrote
      exact .of_board hinv hintent (AmWorld.withIntent_board hinv.board sprint hintent.run_ok hcarry hnamed) rfl
        (.inr ⟨not_not.mp hspr, rfl⟩)
    · cases hwrote

/-- The transaction of an intent follows. -/
theorem Recorded.follows (hrec : Recorded world written flight.carrier sprint run) (hslot : payload.run = some flight)
    (hcomp : ∀ item ∈ run.covered, ⟨run.dispatchId, item.mergeSha, run.sha⟩ ∈ world.compared) :
    Follows clean world written ∧ Inv clean ready written payload := by
  have hboard : ({ world with cards := written.cards, charges := written.charges } : AmWorld).board =
      world.board.withIntent flight.carrier sprint run := hrec.board
  have hnext := hinv.withIntent hslot hintent hboard hcomp hrec.charges
  rw [← hrec.rest] at hnext
  exact ⟨⟨hnext.reload, .intent hrec.write⟩, hnext⟩

end Recording

/-- A run is launched: saved as in flight, recorded with its charge, dispatched, and settled as far as it
goes. -/
theorem launch_keeps (hidle : Idle clean world memory) (hstart : Startable tick memory.payload target covered)
    {sprint : String} {run : E2eRun}
    (hintent : IntentOk world.board ⟨target.ref, run.dispatchId, run.sha, covered⟩ run)
    (hcomp : ∀ item ∈ run.covered, ⟨run.dispatchId, item.mergeSha, run.sha⟩ ∈ world.compared) :
    Keeps clean (launch project tick target.ref sprint run covered)
      (fun _ ↦ Sound clean) world memory := by
  have hfresh := hintent.fresh hidle.inv.board
  have hcarry : target.ref ∈ run.covered.map Covered.ref :=
    hintent.mem_covered.mpr (List.mem_map_of_mem hstart.target_mem)
  have hnamed : ∀ item ∈ run.covered, item.mergeSha ≠ "" := by
    intro item hitem
    obtain ⟨entry, hent, rfl⟩ := hintent.exists_entry hitem
    exact (hidle.inv.memory.named entry (hidle.mem_entries.mpr (hstart.pending entry hent))).2
  refine .bind (hidle.takeOff ⟨target.ref, run.dispatchId, run.sha, covered⟩ hstart.pending hstart.once hfresh) ?_
  rintro _ _ memory' ⟨hinv, hslot, payload, rfl⟩
  split
  · exact .throw hinv
  rw [keeps_stored]
  split
  · next spent _ =>
    have hunk : ∀ o ∈ (world.save payload).board.runs target.ref,
        o.dispatchId ≠ run.dispatchId := fun o hoth hid ↦ hfresh ⟨target.ref, o, hoth, hid⟩
    have hback := Inv.giveBack hinv hslot hunk
    refine .bind hback ?_
    rintro _ w'' mem'' ⟨hinv', hfree, hpend⟩
    have hcov : ∀ entry ∈ covered, entry ∈ mem''.payload.pending := fun entry hent ↦ by
      rw [hpend]
      exact List.mem_append_left _ hent
    exact (budgetSpent_keeps tick ⟨hinv', hfree⟩ hcov hstart.once sprint spent).mono fun _ _ _ hend ↦ hend.inv.weaken
  · next written hwrote =>
    have hintent' : IntentOk (world.save payload).board ⟨target.ref, run.dispatchId, run.sha, covered⟩ run := hintent
    have hrec : Recorded (world.save payload) written target.ref sprint run :=
      recordIntent_recorded tick hinv hintent hcarry hnamed hwrote
    obtain ⟨hfol, hinv'⟩ := hrec.follows hinv hintent hslot hcomp
    have huns : ∀ sent ∈ written.dispatches, sent.dispatchId ≠ run.dispatchId := by
      intro sent hsent hid
      rw [hrec.write.dispatches] at hsent
      exact hfresh (hid ▸ hinv.log.sent_known sent hsent)
    have hintended : Keeps clean (Durable.attempt (tick.refuse .intent) fun _ ↦ written)
        (fun _ w' mem'' ↦ w' = written ∧ mem'' = memory') (world.save payload) memory' := by
      rw [Keeps, meets_attempt]
      exact ⟨fun _ ↦ ⟨hfol, rfl, rfl⟩, fun _ _ ↦ hinv.weaken⟩
    refine .bind hintended ?_
    rintro _ _ _ ⟨rfl, rfl⟩
    rw [keeps_editHand]
    have hsettling := hrec.settling hinv' hslot hintent'
    refine .bind (pushAndDispatch_keeps tick hsettling hintent.unresolved hrec.paid huns) ?_
    rintro _ w'' mem'' ⟨hinv'', hslot'⟩
    exact (settleFlight_keeps project tick hinv'' hslot').bind fun _ _ _ hend ↦ .pure hend.1.weaken

/-- The comparisons of the covered cards with the target are logged. -/
theorem logCompared_keeps (hidle : Idle clean world memory)
    (hstart : Startable tick memory.payload target covered) (id : String) :
    Keeps clean (Durable.commit fun world ↦ { world with
        compared := world.compared ++ ancestry tick id target covered })
      (fun _ world' memory' ↦ memory' = memory ∧ Idle clean world' memory' ∧ world'.board = world.board ∧
        ∀ entry ∈ covered, ⟨id, entry.mergeSha, target.mergeSha⟩ ∈ world'.compared) world memory := by
  have hlog : LogOk { world with compared := world.compared ++ ancestry tick id target covered } :=
    { hidle.inv.log with
      compared := fun ref run hrun item hitem ↦
        List.mem_append_left _ (hidle.inv.log.compared ref run hrun item hitem) }
  obtain ⟨hfol, hnext⟩ := follows_log hidle.inv hlog rfl rfl rfl rfl rfl
  rw [Keeps, meets_commit]
  refine ⟨hfol, rfl, hidle.of_cards hnext, rfl, fun entry hent ↦ List.mem_append_right _ ?_⟩
  refine List.mem_map.mpr ⟨entry, List.mem_filter.mpr ⟨hent, ?_⟩, rfl⟩
  simpa using hstart.compared entry hent

theorem startCovered_keeps (hidle : Idle clean world memory)
    (hstart : Startable tick memory.payload target covered) (declaration : E2eDeclaration) (repo : String) :
    Keeps clean (startCovered project tick declaration repo target covered)
      (fun _ ↦ Sound clean) world memory := by
  refine .bind (Keeps.forM_mem (fun w' mem' ↦ w' = world ∧ mem' = memory) ⟨rfl, rfl⟩ ?_) ?_
  · rintro entry - _ _ ⟨rfl, rfl⟩
    refine .bind (showCard_keeps tick hidle.inv) ?_
    rintro _ _ _ ⟨-, rfl, rfl⟩
    exact .pure ⟨rfl, rfl⟩
  rintro _ _ _ ⟨rfl, rfl⟩
  refine .bind (openSprint_keeps tick hidle.inv) ?_
  rintro sprint world memory ⟨rfl, rfl⟩
  rw [keeps_stored]
  refine .bind (logCompared_keeps tick hidle hstart _) ?_
  rintro _ w' memory ⟨rfl, hidle', hboard, hlogged⟩
  refine launch_keeps project tick hidle' hstart ⟨?_, rfl, rfl, rfl, tick.token, ?_⟩ ?_
  · exact newAmRun_ok tick hidle' hstart declaration repo sprint (dispatchId_ne_empty _ _ _ _)
  · rw [hboard]
    rfl
  · intro _ hitem
    obtain ⟨entry, hent, rfl⟩ := List.mem_map.mp hitem
    exact hlogged entry hent

theorem startNext_keeps (hidle : Idle clean world memory) :
    Keeps clean (startNext project tick)
      (fun _ ↦ Sound clean) world memory := by
  rw [startNext]
  split
  · exact .pure hidle.inv.weaken
  split
  · exact (declineAll_keeps tick hidle).mono fun _ _ _ hend ↦ hend.inv.weaken
  rw [keeps_recallPayload]
  dsimp only
  split
  · exact .pure hidle.inv.weaken
  · next _ htarget =>
    split
    · next repo _ _ hcov =>
      have hperm := List.perm_insertionSort (fun entry o : Entry ↦ entry.mergedAt ≤ o.mergedAt) memory.payload.pending
      obtain rfl := coverable_eq tick hcov
      have hlast := List.mem_of_getLast? htarget
      exact startCovered_keeps project tick hidle {
        pending := fun entry hent ↦ hperm.mem_iff.mp (List.mem_filter.mp hent).1
        once := ((hperm.map ref).nodup_iff.mpr hidle.inv.memory.pending_once).sublist (List.filter_sublist.map _)
        target_mem := List.mem_filter.mpr ⟨hlast, by simp [isAncestor, Except.toOption]⟩
        compared := fun entry hent ↦ by simpa using (List.mem_filter.mp hent).2 } _ repo
    · exact .pure hidle.inv.weaken

end Starting

/-! ### The marks of newly queued cards -/

section Marking

variable (tick : AmTick)

/-- The pending set with an entry marked. -/
def Payload.markPending (payload : Payload) (entry : Entry) : Payload :=
  { payload with pending := payload.pending.map fun other ↦
      if other = entry then { other with marked := true } else other }

theorem Payload.mem_markPending {payload : Payload} {other : Entry} :
    other ∈ (payload.markPending entry).pending ↔
      ∃ before ∈ payload.pending,
        (if before = entry then { before with marked := true } else before) = other := by
  simp [Payload.markPending]

/-- Marking keeps what an entry is an entry of. -/
theorem Payload.markPending_refs (payload : Payload) (entry : Entry) :
    (payload.markPending entry).pending.map ref = payload.pending.map ref := by
  rw [Payload.markPending, List.map_map]
  refine List.map_congr_left fun _ _ ↦ ?_
  rw [Function.comp_apply]
  split <;> rfl

/-- An entry of the marked queue goes back to one of the same merge, which only the marking marked. -/
theorem Payload.entries_markPending {payload : Payload} {other : Entry}
    (hoth : other ∈ (payload.markPending entry).entries) :
    ∃ known ∈ payload.entries, known.pair = other.pair ∧
      (other.marked = true → known.marked = true ∨ known = entry) := by
  obtain hpend | hflight := Payload.mem_entries.mp hoth
  · obtain ⟨pre, hbefore, rfl⟩ := Payload.mem_markPending.mp hpend
    refine ⟨pre, Payload.mem_entries.mpr (.inl hbefore), ?_⟩
    split
    · next hsame => exact ⟨rfl, fun _ ↦ .inr hsame⟩
    · exact ⟨rfl, .inl⟩
  · exact ⟨other, Payload.mem_entries.mpr (.inr hflight), rfl, .inl⟩

/-- The mark of a newly queued card. -/
def Board.queuedMark (board : Board) (entry : Entry) : AfterMergeMark where
  mergeSha := entry.mergeSha
  charged := board.charged entry.ref

variable (hinv : Inv clean ready world memory.payload)
include hinv

theorem Inv.markPending {mark : AfterMergeMark} (hmark : world.board.mark entry.ref = some mark)
    (hsha : mark.mergeSha = entry.mergeSha) :
    Inv clean False world (memory.payload.markPending entry) := by
  refine hinv.exchange ⟨?_, fun o hoth ↦ ?_, fun flight hflight o hoth href ↦ ?_, rfl,
    fun _ o hoth ↦ ?_⟩ rfl False.elim
  · rw [Payload.markPending_refs]
    exact hinv.memory.pending_once
  · obtain ⟨k, hknown, hpair, hwas⟩ := Payload.entries_markPending hoth
    refine ⟨k, hknown, hpair, fun hmarked ↦ (hwas hmarked).imp id fun hsame ↦ ⟨mark, ?_⟩⟩
    simp only [pair, Covered.mk.injEq] at hpair
    rw [← hpair.1, ← hpair.2, hsame]
    exact ⟨hmark, hsha⟩
  · have hin : o.ref ∈ memory.payload.pending.map ref := by
      rw [← Payload.markPending_refs _ entry]
      exact List.mem_map_of_mem hoth
    obtain ⟨pre, hbefore, hsame⟩ := List.mem_map.mp hin
    exact hinv.memory.apart flight hflight pre hbefore (hsame ▸ href)
  · obtain hpend | hflight := Payload.mem_entries.mp hoth
    · refine .inl ⟨_, Payload.mem_entries.mpr (.inl (Payload.mem_markPending.mpr ⟨o, hpend, rfl⟩)), ?_⟩
      split <;> rfl
    · exact .inl ⟨o, Payload.mem_entries.mpr (.inr hflight), rfl⟩

/-- The mark of a pending card is written. -/
theorem writeMark_keeps (hent : entry ∈ memory.payload.pending) :
    Keeps clean (Durable.attempt (tick.refuse (.mark entry.ref)) fun world' ↦
        world'.writeCard entry.ref { world.cards entry.ref with
          afterMerge := some {
            mergeSha := entry.mergeSha
            charged := ((world.cards entry.ref).afterMerge.map AfterMergeMark.charged).getD [] } })
      (fun _ world' memory' ↦ memory' = memory ∧ Inv clean ready world' memory'.payload ∧
        ∃ mark, world'.board.mark entry.ref = some mark ∧ mark.mergeSha = entry.mergeSha)
      world memory := by
  have hqueue : entry ∈ memory.payload.entries := Payload.mem_entries.mpr (.inl hent)
  have hreread : (world.board.queuedMark entry).reread = some (world.board.queuedMark entry) :=
    mark_reread_eq (hinv.memory.named entry hqueue).2
      fun id hid ↦ hinv.board.id_ne_empty (hinv.board.charged_known entry.ref id hid)
  have hboard : (world.writeCard entry.ref { world.cards entry.ref with
      afterMerge := some (world.board.queuedMark entry) }).board =
      world.board.setMark entry.ref (some (world.board.queuedMark entry)) :=
    hinv.board.board_writeMark hreread
  have hnext := hinv.setMark hboard hqueue rfl rfl nofun (by
    intro flight hfly _ hrun hnot href
    obtain ⟨_, hback, hret⟩ := hinv.memory.apart flight hfly entry hent href
    obtain ⟨-, rfl⟩ := hinv.board.unique hrun.1 hback.1 (hrun.2.trans hback.2.symm)
    exact absurd hret hnot)
  rw [Keeps, meets_attempt]
  refine ⟨fun _ ↦ ⟨⟨hnext.reload, .quiet (.setMark hboard rfl)⟩, rfl, hnext, ?_⟩, fun _ _ ↦ hinv.weaken⟩
  exact ⟨world.board.queuedMark entry,
    (congrArg (fun board ↦ board.mark entry.ref) hboard).trans (Board.setMark_mark_self ..), rfl⟩

/-- A card that is not a code card leaves the pending set. -/
theorem Inv.erasePending (hdirty : ¬ clean) (entry : Entry) :
    Inv clean False world { memory.payload with pending := memory.payload.pending.erase entry } := by
  refine hinv.exchange (.of_subset (hinv.memory.pending_once.sublist ((List.erase_sublist ..).map _)) ?_ ?_ rfl
    fun hcln ↦ absurd hcln hdirty) rfl False.elim
  · exact fun o hoth ↦ Payload.mem_entries.mpr ((Payload.mem_entries.mp hoth).imp List.mem_of_mem_erase id)
  · exact fun flight hfly o hoth ↦
      hinv.memory.apart flight hfly o (List.mem_of_mem_erase hoth)

theorem markEntry_keeps (hent : entry ∈ memory.payload.pending) (hcode : clean → ∀ ref, tick.isCode ref = true) :
    Keeps clean (markEntry tick entry)
      (fun _ world' memory' ↦ Inv clean False world' memory'.payload ∧
        (∀ other ∈ memory'.payload.pending, other.marked = false → other ∈ memory.payload.pending ∧ other ≠ entry) ∧
        ∀ other ∈ memory.payload.pending, other ≠ entry → other ∈ memory'.payload.pending)
      world memory := by
  refine .bind (showCard_keeps tick hinv) ?_
  rintro _ _ memory ⟨rfl, rfl, rfl⟩
  split
  · refine .bind (writeMark_keeps tick hinv hent) ?_
    rintro _ _ memory ⟨rfl, hinv', _, hmark, hsha⟩
    rw [keeps_editPayload]
    refine ⟨hinv'.markPending hmark hsha, fun other hoth hmarked ↦ ?_, fun other hoth hne ↦ ?_⟩
    · obtain ⟨_, _, rfl⟩ := Payload.mem_markPending.mp hoth
      split at hmarked
      · cases hmarked
      · next hne => exact ⟨by rwa [if_neg hne], by rwa [if_neg hne]⟩
    · exact Payload.mem_markPending.mpr ⟨other, hoth, if_neg hne⟩
  · next hnot =>
    have hdirty : ¬ clean := fun hcln ↦ hnot (hcode hcln entry.ref)
    rw [keeps_editPayload]
    refine ⟨hinv.erasePending hdirty entry, fun other hoth _ ↦ ?_, fun other hoth hne ↦ ?_⟩
    · have hpend : memory.payload.pending.Nodup := .of_map _ hinv.memory.pending_once
      exact ((hpend.mem_erase_iff).mp hoth).symm
    · exact (List.mem_erase_of_ne hne).mpr hoth

/-- After `_mark_queued` every pending card has its mark. -/
theorem markQueued_keeps (hcode : clean → ∀ ref, tick.isCode ref = true) :
    Keeps clean (markQueued tick)
      (fun _ world' memory' ↦ Inv clean True world' memory'.payload) world memory := by
  have hmark : ∀ (world' : AmWorld) (memory' : AmMemory), Inv clean False world' memory'.payload →
      (∀ o ∈ memory'.payload.pending, o.marked = false → o ∈ ([] : List Entry)) →
      Inv clean True world' memory'.payload := by
    intro world' memory' hinv' hall
    refine { hinv' with ready := fun _ entry hent ↦ ?_ }
    cases hbit : entry.marked with
    | true => rfl
    | false => exact absurd (hall entry hent hbit) List.not_mem_nil
  have hpend : memory.payload.pending.Nodup := .of_map _ hinv.memory.pending_once
  rw [markQueued, keeps_recallPayload]
  refine .bind (Keeps.forM (fun rest world' memory' ↦ Inv clean False world' memory'.payload ∧
    rest.Nodup ∧ (∀ entry ∈ rest, entry ∈ memory'.payload.pending) ∧
    ∀ o ∈ memory'.payload.pending, o.marked = false → o ∈ rest) _ ?_ ?_) ?_
  · refine ⟨hinv.weaken, hpend.filter _, fun entry hent ↦ (List.mem_filter.mp hent).1, ?_⟩
    exact fun o hoth hbit ↦ List.mem_filter.mpr ⟨hoth, by simpa using hbit⟩
  · rintro entry rest world' memory' ⟨hinv', hnodup, hrest, hfresh⟩
    rw [List.nodup_cons] at hnodup
    refine (markEntry_keeps tick hinv' (hrest entry (by simp)) hcode).mono ?_
    rintro _ w'' mem'' ⟨hinv'', hleft, hkept⟩
    refine ⟨hinv'', hnodup.2, fun o hoth ↦ ?_, fun o hoth hbit ↦ ?_⟩
    · exact hkept o (hrest o (by simp [hoth])) fun hsame ↦ hnodup.1 (hsame ▸ hoth)
    · obtain ⟨hother', hne⟩ := hleft o hoth hbit
      exact (List.mem_cons.mp (hfresh o hother' hbit)).resolve_left hne
  · rintro _ world' memory' ⟨hinv', -, -, hall⟩
    split
    · exact .pure (hmark world' memory' hinv' hall)
    · refine (save_keeps (hmark world' memory' hinv' hall)).mono ?_
      rintro _ w'' mem'' ⟨-, rfl, hlast⟩
      exact hlast

end Marking

/-! ### The branches to delete -/

section Cleaning

variable (tick : AmTick)

theorem markDeleted_keeps (hinv : Inv clean ready world memory.payload) (item : Cleanup) :
    Keeps clean (markDeleted tick item)
      (fun _ world' memory' ↦ Inv clean ready world' memory'.payload) world memory := by
  rw [markDeleted]
  split
  · exact .pure hinv
  refine .bind (showCard_keeps tick hinv) ?_
  rintro _ _ _ ⟨rfl, rfl, rfl⟩
  rw [keeps_editHand]
  split
  · exact .pure hinv
  · next i hfind =>
    obtain ⟨run, hhand, -⟩ := hinv.hand hfind
    have hdeleted : RunStep run { run with gitRefState := .deleted } :=
      ⟨rfl, rfl, rfl, rfl, rfl, id, id, fun _ ↦ rfl, fun _ ↦ ⟨rfl, rfl, rfl, rfl, rfl, rfl⟩⟩
    split
    · exact .pure hinv
    · exact (amendHand_keeps tick (f := fun run ↦ { run with gitRefState := .deleted }) hhand.inv
        hhand.ok hdeleted { hhand.ok.ok with }).mono fun _ _ _ hend ↦ hend.2.1.inv

theorem cleanupRefs_keeps (hinv : Inv clean ready world memory.payload) :
    Keeps clean (cleanupRefs tick)
      (fun _ world' memory' ↦ Inv clean ready world' memory'.payload) world memory := by
  refine .forM_mem (fun world' memory' ↦ Inv clean ready world' memory'.payload) hinv ?_
  intro item _ world' memory' hinv'
  rw [cleanRef]
  cases tick.deleteRef item.dispatchId with
  | error _ => exact .pure hinv'
  | ok _ =>
    refine .bind (markDeleted_keeps tick hinv' item) ?_
    intro _ _ _ hinv''
    refine (saveRest_keeps hinv'' rfl rfl rfl).mono ?_
    exact fun _ _ _ hend ↦ hend.1

end Cleaning

/-! ### The queue's step -/

section Step

variable (project : String) (tick : AmTick)

theorem useSlot_keeps (hidle : Idle clean world memory) :
    Keeps clean (useSlot project tick)
      (fun _ ↦ Sound clean) world memory := by
  have hnext : ∀ (held : Bool) w' memory', Idle clean w' memory' →
      Keeps clean (if held = true then pure () else do
          let payload ← recallPayload
          if payload.pending = [] then pure () else startNext project tick)
        (fun _ w'' mem'' ↦ Inv clean False w'' mem''.payload) w' memory' := by
    intro held w' memory' hidle'
    split
    · exact .pure hidle'.inv.weaken
    rw [keeps_recallPayload]
    split
    · exact .pure hidle'.inv.weaken
    · exact startNext_keeps project tick hidle'
  have hnone : Keeps clean (pure false) (fun _ ↦ Idle clean) world memory :=
    Keeps.pure hidle
  rw [useSlot, keeps_recallPayload]
  split
  · exact hnone.bind hnext
  · exact (recheckBudget_keeps tick hidle).bind hnext

theorem progress_keeps (hinv : Inv clean ready world memory.payload) (hcode : clean → ∀ ref, tick.isCode ref = true) :
    Keeps clean (progress project tick)
      (fun _ ↦ Sound clean) world memory := by
  refine .bind (markQueued_keeps tick hinv hcode) ?_
  intro _ _ _ hinv'
  rw [keeps_recallPayload]
  split
  · next hfree => exact useSlot_keeps project tick ⟨hinv', hfree⟩
  · next _ hslot =>
    refine .bind (settleFlight_keeps project tick hinv' hslot) ?_
    rintro done _ _ ⟨hinv'', hfree⟩
    cases done with
    | true => exact useSlot_keeps project tick ⟨hinv'', hfree rfl⟩
    | false => exact .pure hinv''.weaken

/-- An exception ends the queue's step, and leaves the invariant. -/
theorem reconcileAfterMerge_keeps (hinv : Inv clean ready world memory.payload)
    (hcode : clean → ∀ ref, tick.isCode ref = true) :
    Keeps clean (reconcileAfterMerge project tick)
      (fun _ ↦ Sound clean) world memory := by
  have hsteps : Keeps clean (do progress project tick; cleanupRefs tick)
      (fun _ ↦ Sound clean) world memory :=
    (progress_keeps project tick hinv hcode).bind fun _ _ _ hinv' ↦ cleanupRefs_keeps tick hinv'
  have hcaught : Keeps clean (tryCatch (do progress project tick; cleanupRefs tick) fun _ ↦ pure ())
      (fun _ ↦ Sound clean) world memory := by
    rw [Keeps, meets_tryCatch]
    refine Meets.mono hsteps fun res w' mem' hres ↦ ?_
    cases res with
    | ok _ => exact hres
    | error e => simpa using hres
  refine .bind hcaught ?_
  intro _ w' mem' hinv'
  rw [keeps_recallPayload]
  split
  · refine (save_keeps hinv').mono ?_
    rintro _ _ _ ⟨-, rfl, hlast⟩
    exact hlast
  · exact .pure hinv'

end Step

end Ummanu.E2e
