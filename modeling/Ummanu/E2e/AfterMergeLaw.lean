import Ummanu.E2e.StartLaw

/-!
# Whole histories of the after-merge e2e

A history is a list of landings and ticks, each of which a crash may cut short after any of its writes. The
watches are judged here, and with them a whole event (`amStep_follows`), so that the invariant holds of
every durable state of every history (`history_inv`). What is said of histories follows from it.

A run is paid and dispatched once, whatever happens. A green merge is held as long as events are `Orderly`:
a card's next merge does not become green while an earlier one is still under way or was declined, and a
card's watch is not replaced while it holds a green result. A second merge of a pending card is dropped
otherwise. A request that is replayed is the committed one except where it is built anew at every attempt:
a card that is declined with a batch is told another text when the batch has grown.
-/

set_option autoImplicit false

namespace Ummanu.E2e

open Library Payload AmWorld

/-! ### Watches in the production state -/

section Watches

variable {board : Board} {payload : Payload} {greens : List Covered} {watch : Watch} {ref : String}

theorem Payload.mem_greens {pair : Covered} :
    pair ∈ payload.greens ↔ ∃ watch ∈ payload.watches, watch.green = true ∧ ⟨watch.ref, watch.sha⟩ = pair := by
  simp [greens, and_assoc]

theorem Payload.watch_eq_some (hwatch : payload.watch ref = some watch) :
    watch ∈ payload.watches ∧ watch.ref = ref :=
  ⟨List.mem_of_find?_eq_some hwatch, by simpa using List.find?_some hwatch⟩

theorem Payload.mem_setWatch {other : Watch} :
    other ∈ (payload.setWatch watch).watches ↔
      other ∈ payload.watches ∧ other.ref ≠ watch.ref ∨ other = watch := by
  simp [setWatch]

theorem Payload.mem_dropWatch {other : Watch} :
    other ∈ (payload.dropWatch ref).watches ↔ other ∈ payload.watches ∧ other.ref ≠ ref := by
  simp [dropWatch]

/-- The watch of a card is the only one. -/
theorem QueueOk.watch_unique (hqueue : QueueOk board payload) {other : Watch}
    (hoth : other ∈ payload.watches) (hwatch : watch ∈ payload.watches) (href : other.ref = watch.ref) :
    other = watch :=
  List.inj_on_of_nodup_map hqueue.watch_once hoth hwatch href

theorem QueueOk.setWatch (hqueue : QueueOk board payload)
    (hnamed : watch.ref ≠ "" ∧ (watch.green = true → watch.sha ≠ "")) :
    QueueOk board (payload.setWatch watch) :=
  { hqueue with
    watch_once := by
      refine nodup_map_concat (hqueue.watch_once.sublist (List.filter_sublist.map _)) fun o hoth ↦ ?_
      simpa using (List.mem_filter.mp hoth).2
    watch_named := by
      intro o hoth
      obtain ⟨hoth, -⟩ | rfl := mem_setWatch.mp hoth
      · exact hqueue.watch_named o hoth
      · exact hnamed }

theorem QueueOk.dropWatch (hqueue : QueueOk board payload) (ref : String) :
    QueueOk board (payload.dropWatch ref) :=
  { hqueue with
    watch_once := hqueue.watch_once.sublist (List.filter_sublist.map _)
    watch_named := fun o hoth ↦ hqueue.watch_named o (mem_dropWatch.mp hoth).1 }

/-- A watch is replaced by one that stands for the same merge, if it stood for one. -/
theorem HeldOk.setWatch (hheld : HeldOk board greens payload)
    (hsame : ∀ old ∈ payload.watches, old.ref = watch.ref → old.green = true →
      watch.green = true ∧ watch.sha = old.sha) :
    HeldOk board greens (payload.setWatch watch) := by
  refine hheld.exchange (fun _ hpair ↦ .inl ?_) (fun e hent ↦ .inl ⟨e, hent, rfl⟩) fun e hent ↦ ⟨e, hent, rfl⟩
  obtain ⟨old, hold, hgreen, rfl⟩ := mem_greens.mp hpair
  by_cases href : old.ref = watch.ref
  · obtain ⟨hgreen', hsha⟩ := hsame old hold href hgreen
    exact mem_greens.mpr ⟨watch, mem_setWatch.mpr (.inr rfl), hgreen', by rw [href, hsha]⟩
  · exact mem_greens.mpr ⟨old, mem_setWatch.mpr (.inl ⟨hold, href⟩), hgreen, rfl⟩

/-- A watch is dropped once its merge is accounted for. -/
theorem HeldOk.dropWatch (hheld : HeldOk board greens payload)
    (hacct : ∀ old ∈ payload.watches, old.ref = ref → old.green = true → Accounted board payload ⟨old.ref, old.sha⟩) :
    HeldOk board greens (payload.dropWatch ref) := by
  refine hheld.exchange (fun _ hpair ↦ ?_) (fun e hent ↦ .inl ⟨e, hent, rfl⟩) fun e hent ↦ ⟨e, hent, rfl⟩
  obtain ⟨old, hold, hgreen, rfl⟩ := mem_greens.mp hpair
  by_cases href : old.ref = ref
  · exact .inr (hacct old hold href hgreen)
  · exact .inl (mem_greens.mpr ⟨old, mem_dropWatch.mpr ⟨hold, href⟩, hgreen, rfl⟩)

theorem Payload.mem_queue {entry other : Entry} :
    other ∈ (payload.queue (some entry)).entries ↔ other ∈ payload.entries ∨ other = entry := by
  simp only [mem_entries, queue, Option.toList_some, List.mem_append, List.mem_singleton]
  exact or_right_comm

/-- An entry of a card that is not known joins the pending set. -/
theorem QueueOk.queue (hqueue : QueueOk board payload) {entry : Entry}
    (hnew : entry.ref ∉ payload.entries.map Entry.ref) (hnamed : entry.ref ≠ "" ∧ entry.mergeSha ≠ "")
    (hfresh : entry.marked = false) : QueueOk board (payload.queue (some entry)) := { hqueue with
  pending_once := by
    refine nodup_map_concat hqueue.pending_once fun o hother hsame ↦ hnew ?_
    exact hsame ▸ List.mem_map_of_mem (mem_entries.mpr (.inl hother))
  one_sha := by
    intro a hfst b hsnd href
    rw [mem_queue] at hfst hsnd
    obtain hfst | hfst := hfst
    · obtain hsnd | hsnd := hsnd
      · exact hqueue.one_sha a hfst b hsnd href
      · exact absurd (hsnd ▸ href ▸ List.mem_map_of_mem hfst) hnew
    · obtain hsnd | hsnd := hsnd
      · exact absurd (hfst ▸ href ▸ List.mem_map_of_mem hsnd) hnew
      · rw [hfst, hsnd]
  named := by
    intro o hother
    obtain hother | rfl := mem_queue.mp hother
    · exact hqueue.named o hother
    · exact hnamed
  marked := by
    intro o hother hmark
    obtain hother | rfl := mem_queue.mp hother
    · exact hqueue.marked o hother hmark
    · rw [hfresh] at hmark
      cases hmark
  apart := by
    intro fl hfly o hother href
    obtain hother | hother := List.mem_append.mp hother
    · exact hqueue.apart fl hfly o hother href
    · obtain rfl : o = entry := by simpa using hother
      obtain ⟨_, hknown, hsame⟩ := List.mem_map.mp href
      exact absurd (hsame ▸ List.mem_map_of_mem (mem_entries.mpr (.inr ⟨fl, hfly, hknown⟩))) hnew }

theorem HeldOk.queue (hheld : HeldOk board greens payload) {entry : Entry}
    (hdecl : ∀ mark, board.mark entry.ref = some mark → mark.state = .declined →
      mark.mergeSha = entry.mergeSha) : HeldOk board greens (payload.queue (some entry)) := by
  have hacct : ∀ pair, Accounted board payload pair →
      Accounted board (payload.queue (some entry)) pair := by
    rintro pair (⟨k, hknown, hpair⟩ | hrest)
    · exact .inl ⟨k, mem_queue.mpr (.inl hknown), hpair⟩
    · exact .inr hrest
  refine ⟨fun pair hpair ↦ (hheld.held pair hpair).imp id (hacct pair),
    fun o mark hmark ↦ hacct _ (hheld.marks o mark hmark), fun o hoth ↦ ?_⟩
  obtain hoth | rfl := mem_queue.mp hoth
  · exact hheld.declined o hoth
  · exact hdecl

end Watches

/-! ### Watches through a tick -/

section Reconcile

variable {clean : Prop} {world : AmWorld} {memory : AmMemory} {watch : Watch} (tick : AmTick)

/-- What a read watch keeps, and that a CI reading has a merge commit. -/
theorem readCi_spec (watch : Watch) :
    (readCi tick watch).1.ref = watch.ref ∧ (readCi tick watch).1.result = watch.result ∧
      ((readCi tick watch).2.isSome = true → (readCi tick watch).1.mergeSha ≠ "") := by
  simp only [readCi]
  split <;> split <;> try split
  all_goals simp_all

theorem resolve_kept (watch : Watch) :
    (resolve tick watch).1.ref = watch.ref ∧ (resolve tick watch).1.result = watch.result := by
  obtain ⟨href, hres, -⟩ := readCi_spec tick watch
  simp only [resolve]
  split
  · exact ⟨rfl, rfl⟩
  · split <;> try split
    all_goals exact ⟨href, hres⟩

/-- A green result has the merge commit it was read for. -/
theorem resolve_green {result : WatchResult} (hres : (resolve tick watch).2 = some result)
    (hgreen : result.verdict = .green) : result.mergeSha ≠ "" := by
  have hread := (readCi_spec tick watch).2.2
  simp only [resolve] at hres
  split at hres
  · cases hres
    cases hgreen
  · split at hres
    · next hci =>
      cases hres
      exact hread (by rw [hci]; rfl)
    · cases hres
      cases hgreen
    · split at hres
      · cases hres
        cases hgreen
      · cases hres

/-- The watch as it is once a tick has read its CI. -/
def Watch.answered (watch : Watch) : Watch :=
  if watch.result.isSome then watch
  else { (resolve tick watch).1 with result := (resolve tick watch).2 }

/-- No earlier merge of the card is pending, in flight or declined when this one is green. -/
def Queueable (cards : String → E2eState) (payload : Payload) (watch : Watch) : Prop :=
  watch.green = true →
    (∀ entry ∈ payload.entries, entry.ref = watch.ref → entry.mergeSha = watch.sha) ∧
      ∀ mark, (cards watch.ref).afterMerge = some mark → mark.state = .declined → mark.mergeSha = watch.sha

/-- Why a watch need not be kept. -/
def Settleable (world : AmWorld) (payload : Payload) (watch : Watch) : Prop :=
  (∃ declared, tick.placement watch.ref = .ok declared ∧ declared.filter (·.afterMerge) = none) ∨
    (watch.ref = "" ∨ watch.sha = "") ∨ watch.ref ∈ payload.entries.map Entry.ref ∨
    (world.cards watch.ref).afterMerge.map AfterMergeMark.mergeSha = some watch.sha

/-- What `enqueue` answers. -/
theorem enqueue_keeps (watch : Watch) :
    Keeps clean (enqueue tick watch)
      (fun queued world' memory' ↦ world' = world ∧ memory' = memory ∧
        (queued.entry = some watch.entry ∧ watch.ref ∉ memory.payload.entries.map Entry.ref ∧
            watch.ref ≠ "" ∧ watch.sha ≠ "" ∧ watch.green = true ∨
          queued.entry = none ∧ (queued.settled = true → watch.green = true →
            Settleable tick world memory.payload watch))) world memory := by
  rw [enqueue]
  split
  · next hred =>
    exact .pure ⟨rfl, rfl, .inr ⟨rfl, fun _ hgreen ↦ absurd hgreen (by rw [hred]; decide)⟩⟩
  · next hgreen =>
    split
    · exact .pure ⟨rfl, rfl, .inr ⟨rfl, nofun⟩⟩
    · next declared hdecl =>
      split
      · next hdrop =>
        refine .pure ⟨rfl, rfl, .inr ⟨rfl, fun _ _ ↦ ?_⟩⟩
        exact hdrop.imp (fun hnone ↦ ⟨declared, hdecl, hnone⟩) .inl
      · next hkeep =>
        obtain ⟨-, hnamed⟩ := not_or.mp hkeep
        obtain ⟨href, hsha⟩ := not_or.mp hnamed
        rw [keeps_recallPayload]
        split
        · next hknown => exact .pure ⟨rfl, rfl, .inr ⟨rfl, fun _ _ ↦ .inr (.inr (.inl hknown))⟩⟩
        · next hnew =>
          split
          · exact .pure ⟨rfl, rfl, .inr ⟨rfl, nofun⟩⟩
          · rw [keeps_stored]
            split
            · next hmark => exact .pure ⟨rfl, rfl, .inr ⟨rfl, fun _ _ ↦ .inr (.inr (.inr hmark))⟩⟩
            · exact .pure ⟨rfl, rfl, .inl ⟨rfl, hnew, href, hsha, by simpa using hgreen⟩⟩

/-- What a step of one card's watch leaves alone. -/
structure Elsewhere (ref : String) (world : AmWorld) (payload : Payload) (world' : AmWorld)
    (payload' : Payload) : Prop where
  cards : world'.cards = world.cards
  watches : ∀ other ∈ payload'.watches, other.ref ≠ ref → other ∈ payload.watches
  entries : ∀ entry ∈ payload'.entries, entry.ref ≠ ref → entry ∈ payload.entries

theorem Elsewhere.refl (ref : String) (world : AmWorld) (payload : Payload) :
    Elsewhere ref world payload world payload :=
  ⟨rfl, fun _ hoth _ ↦ hoth, fun _ hent _ ↦ hent⟩

theorem Elsewhere.trans {ref : String} {world₁ world₂ world₃ : AmWorld}
    {payload₁ payload₂ payload₃ : Payload} (hfst : Elsewhere ref world₁ payload₁ world₂ payload₂)
    (hsnd : Elsewhere ref world₂ payload₂ world₃ payload₃) :
    Elsewhere ref world₁ payload₁ world₃ payload₃ where
  cards := hsnd.cards.trans hfst.cards
  watches := fun other hoth hne ↦ hfst.watches other (hsnd.watches other hoth hne) hne
  entries := fun entry hent hne ↦ hfst.entries entry (hsnd.entries entry hent hne) hne

/-- A card's watch is written, in memory or with a save. -/
theorem Elsewhere.setWatch (world : AmWorld) (payload : Payload) (watch : Watch) :
    Elsewhere watch.ref world payload world (payload.setWatch watch) where
  cards := rfl
  watches := by
    intro _ hoth hne
    obtain ⟨hoth, -⟩ | rfl := mem_setWatch.mp hoth
    · exact hoth
    · exact absurd rfl hne
  entries := fun _ hent _ ↦ hent

theorem Elsewhere.dropWatch (world : AmWorld) (payload : Payload) (ref : String) :
    Elsewhere ref world payload (world.save (payload.dropWatch ref)) (payload.dropWatch ref) where
  cards := rfl
  watches := fun _ hoth _ ↦ (mem_dropWatch.mp hoth).1
  entries := fun _ hent _ ↦ hent

theorem Elsewhere.queue (world : AmWorld) (payload : Payload) (entry : Entry) :
    Elsewhere entry.ref world payload (world.save (payload.queue (some entry)))
      (payload.queue (some entry)) where
  cards := rfl
  watches := fun _ hoth _ ↦ hoth
  entries := by
    intro _ hoth hne
    obtain hoth | rfl := mem_queue.mp hoth
    · exact hoth
    · exact absurd rfl hne

/-- The placement of every card that is read is after the merge. -/
def AllAfterMerge : Prop :=
  ∀ ref declared, tick.placement ref = .ok declared → declared.filter (·.afterMerge) ≠ none

/-- A settled watch's merge is accounted for. -/
theorem Settleable.accounted (hset : Settleable tick world memory.payload watch)
    (hinv : Inv clean False world memory.payload) (hcln : clean) (hwatch : watch ∈ memory.payload.watches)
    (hgreen : watch.green = true) (hplace : AllAfterMerge tick)
    (hqable : Queueable world.cards memory.payload watch) :
    Accounted world.board memory.payload ⟨watch.ref, watch.sha⟩ := by
  obtain ⟨href, hsha⟩ := hinv.memory.watch_named watch hwatch
  obtain ⟨declared, hdecl, hnone⟩ | (hempty | hempty) | hknown | hmark := hset
  · exact absurd hnone (hplace watch.ref declared hdecl)
  · exact absurd hempty href
  · exact absurd hempty (hsha hgreen)
  · obtain ⟨e, hent, hsame⟩ := List.mem_map.mp hknown
    exact .inl ⟨e, hent, by rw [Entry.pair, hsame, (hqable hgreen).1 e hent hsame]⟩
  · obtain ⟨mark, hmark, hsame⟩ := Option.map_eq_some_iff.mp hmark
    exact hsame ▸ (hinv.held hcln).2.marks watch.ref mark hmark

theorem answered_ref (watch : Watch) : (watch.answered tick).ref = watch.ref := by
  rw [Watch.answered]
  split
  · rfl
  · exact (resolve_kept tick watch).1

theorem Queueable.elsewhere {ref : String} {world' : AmWorld} {payload' : Payload}
    (hqable : Queueable world.cards memory.payload watch)
    (helse : Elsewhere ref world memory.payload world' payload') (hne : watch.ref ≠ ref) :
    Queueable world'.cards payload' watch := by
  intro hgreen
  obtain ⟨hlist, hdecl⟩ := hqable hgreen
  rw [helse.cards]
  exact ⟨fun e hent href ↦ hlist e (helse.entries e hent (href ▸ hne)) href, hdecl⟩

/-- Only what is about one ref moved. -/
abbrev Moved (clean : Prop) (ref : String) (world : AmWorld) (memory : AmMemory) :
    Unit → AmWorld → AmMemory → Prop :=
  fun _ world' memory' ↦ Inv clean False world' memory'.payload ∧
    Elsewhere ref world memory.payload world' memory'.payload

variable (hinv : Inv clean False world memory.payload)
include hinv

theorem dropWatch_keeps (hwatch : watch ∈ memory.payload.watches)
    (hacct : clean → watch.green = true → Accounted world.board memory.payload ⟨watch.ref, watch.sha⟩) :
    Keeps clean (savePayload (·.dropWatch watch.ref)) (Moved clean watch.ref world memory) world memory := by
  have hslot : SlotOk world.board (memory.payload.dropWatch watch.ref).run := hinv.slot
  have hready : False → ∀ entry ∈ (memory.payload.dropWatch watch.ref).pending, entry.marked = true :=
    False.elim
  refine (savePayload_keeps hinv (hinv.memory.dropWatch watch.ref) hslot hready fun hcln ↦ ?_).mono ?_
  · refine (hinv.held hcln).2.dropWatch fun _ hold href hgreen ↦ ?_
    obtain rfl := hinv.memory.watch_unique hold hwatch href
    exact hacct hcln hgreen
  · rintro _ _ _ ⟨rfl, rfl, hnext⟩
    exact ⟨hnext, .dropWatch world memory.payload watch.ref⟩

theorem queueEntry_keeps (hnew : watch.ref ∉ memory.payload.entries.map Entry.ref)
    (href : watch.ref ≠ "") (hsha : watch.sha ≠ "") (hgreen : watch.green = true)
    (hqable : clean → Queueable world.cards memory.payload watch) :
    Keeps clean (savePayload (·.queue (some watch.entry)))
      (fun _ world' memory' ↦ Inv clean False world' memory'.payload ∧
        memory'.payload = memory.payload.queue (some watch.entry) ∧
        Elsewhere watch.ref world memory.payload world' memory'.payload) world memory := by
  have hslot : SlotOk world.board (memory.payload.queue (some watch.entry)).run := hinv.slot
  have hready : False → ∀ entry ∈ (memory.payload.queue (some watch.entry)).pending, entry.marked = true :=
    False.elim
  have hqueue : QueueOk world.board (memory.payload.queue (some watch.entry)) :=
    hinv.memory.queue hnew ⟨href, hsha⟩ rfl
  have hheld : clean → HeldOk world.board world.answeredGreen (memory.payload.queue (some watch.entry)) := fun hcln ↦
    (hinv.held hcln).2.queue fun mark hmark ↦ (hqable hcln hgreen).2 mark hmark
  refine (savePayload_keeps hinv hqueue hslot hready hheld).mono ?_
  rintro _ _ _ ⟨rfl, rfl, hnext⟩
  exact ⟨hnext, rfl, .queue world memory.payload watch.entry⟩

theorem queueWatch_keeps (hwatch : watch ∈ memory.payload.watches) (hplace : clean → AllAfterMerge tick)
    (hqable : clean → Queueable world.cards memory.payload watch) :
    Keeps clean (queueWatch tick watch) (Moved clean watch.ref world memory) world memory := by
  refine .bind (enqueue_keeps tick watch) ?_
  rintro _ world memory ⟨rfl, rfl, ⟨hent, hnew, href, hsha, hgreen⟩ | ⟨hent, hset⟩⟩
  · rw [hent]
    refine .bind (queueEntry_keeps hinv hnew href hsha hgreen hqable) ?_
    rintro _ w' mem' ⟨hinv', hload, helse⟩
    split
    · have hwatch' : watch ∈ mem'.payload.watches := by rw [hload]; exact hwatch
      refine (dropWatch_keeps hinv' hwatch' fun _ _ ↦ .inl ⟨watch.entry, ?_, rfl⟩).mono ?_
      · rw [hload]
        exact mem_queue.mpr (.inr rfl)
      · rintro _ w'' mem'' ⟨hinv'', helse'⟩
        exact ⟨hinv'', helse.trans helse'⟩
    · exact .pure ⟨hinv', helse⟩
  · rw [hent]
    refine .bind (saveRest_keeps hinv rfl (List.append_nil _) rfl) ?_
    rintro _ w' mem' ⟨hinv', hload, hcards⟩
    have hsame : mem'.payload = memory.payload := by
      rw [hload, queue, Option.toList_none, List.append_nil]
    have hboard : w'.board = world.board := by rw [board, board, hcards]
    have helse : Elsewhere watch.ref world memory.payload w' mem'.payload := by
      rw [hsame]
      exact ⟨hcards, fun _ hoth _ ↦ hoth, fun _ hent _ ↦ hent⟩
    split
    · next hdone =>
      refine (dropWatch_keeps hinv' (hsame ▸ hwatch) fun hcln hgreen ↦ ?_).mono ?_
      · rw [hboard, hsame]
        exact (hset hdone hgreen).accounted tick hinv hcln hwatch hgreen (hplace hcln) (hqable hcln)
      · rintro _ w'' mem'' ⟨hinv'', helse'⟩
        exact ⟨hinv'', helse.trans helse'⟩
    · exact .pure ⟨hinv', helse⟩

/-- A watch is replaced in memory. -/
theorem Inv.setWatch (hnamed : watch.ref ≠ "" ∧ (watch.green = true → watch.sha ≠ ""))
    (hsame : ∀ old ∈ memory.payload.watches, old.ref = watch.ref → old.green = true →
      watch.green = true ∧ watch.sha = old.sha) :
    Inv clean False world (memory.payload.setWatch watch) :=
  hinv.remember (hinv.memory.setWatch hnamed) rfl (fun e hent ↦ ⟨e, hent, rfl⟩) False.elim
    fun hcln ↦ (hinv.held hcln).2.setWatch hsame

/-- A watch is replaced, and saved. -/
theorem saveWatch_keeps {f : Payload → Payload} (hf : f memory.payload = memory.payload.setWatch watch)
    (hnamed : watch.ref ≠ "" ∧ (watch.green = true → watch.sha ≠ ""))
    (hsame : clean → ∀ old ∈ memory.payload.watches, old.ref = watch.ref → old.green = true →
      watch.green = true ∧ watch.sha = old.sha) :
    Keeps clean (savePayload f)
      (fun _ world' memory' ↦ Inv clean False world' memory'.payload ∧
        memory'.payload = memory.payload.setWatch watch ∧ world'.cards = world.cards) world memory := by
  have hready : False → ∀ entry ∈ (f memory.payload).pending, entry.marked = true := False.elim
  refine (savePayload_keeps hinv (hf ▸ hinv.memory.setWatch hnamed) (hf ▸ hinv.slot) hready
    fun hcln ↦ hf ▸ (hinv.held hcln).2.setWatch (hsame hcln)).mono ?_
  rintro _ _ _ ⟨rfl, rfl, hnext⟩
  exact ⟨hnext, hf, rfl⟩

theorem publishWatch_keeps (hwatch : watch ∈ memory.payload.watches) (hplace : clean → AllAfterMerge tick)
    (hqable : clean → Queueable world.cards memory.payload watch) :
    Keeps clean (publishWatch tick watch) (Moved clean watch.ref world memory) world memory := by
  rw [publishWatch]
  split
  · exact queueWatch_keeps tick hinv hwatch hplace hqable
  · split
    · exact .pure ⟨hinv, .refl _ _ _⟩
    · have hinv' : Inv clean False world
          (memory.payload.setWatch { watch with published := true }) := by
        refine hinv.setWatch (hinv.memory.watch_named watch hwatch) fun _ hold href hgreen ↦ ?_
        obtain rfl := hinv.memory.watch_unique hold hwatch href
        exact ⟨hgreen, rfl⟩
      have hedit : Keeps clean (editPayload (·.setWatch { watch with published := true }))
          (fun _ w' mem' ↦ w' = world ∧ mem' = { memory with
            payload := memory.payload.setWatch { watch with published := true } }) world memory := by
        rw [keeps_editPayload]
        exact ⟨rfl, rfl⟩
      refine .bind hedit ?_
      rintro _ _ _ ⟨rfl, rfl⟩
      refine .mono (queueWatch_keeps tick hinv' (mem_setWatch.mpr (.inr rfl)) hplace hqable) ?_
      rintro _ _ _ ⟨hinv'', helse⟩
      exact ⟨hinv'', (Elsewhere.setWatch _ memory.payload { watch with published := true }).trans helse⟩

/-- What a tick does with one watch. -/
theorem reconcileWatch_keeps (ref : String) (hplace : clean → AllAfterMerge tick)
    (hqable : clean → ∀ watch ∈ memory.payload.watches, watch.ref = ref →
      Queueable world.cards memory.payload (watch.answered tick)) :
    Keeps clean (reconcileWatch tick ref) (Moved clean ref world memory) world memory := by
  rw [reconcileWatch, keeps_recallPayload]
  split
  · exact .pure ⟨hinv, .refl _ _ _⟩
  · next watch hfnd =>
    obtain ⟨hwatch, rfl⟩ := watch_eq_some hfnd
    have hown := fun hcln ↦ hqable hcln watch hwatch rfl
    split
    · next hout =>
      have hans : watch.answered tick = watch := if_pos hout
      exact publishWatch_keeps tick hinv hwatch hplace fun hcln ↦ hans ▸ hown hcln
    · next hout =>
      have hnone : watch.result = none := by simpa using hout
      have href := (resolve_kept tick watch).1
      have hold : ∀ old ∈ memory.payload.watches, old.ref = watch.ref → old.green ≠ true := by
        intro old hold hsame hgreen
        obtain rfl := hinv.memory.watch_unique hold hwatch hsame
        rw [Watch.green, hnone] at hgreen
        cases hgreen
      have hans : watch.answered tick =
          { (resolve tick watch).1 with result := (resolve tick watch).2 } := if_neg hout
      cases hres : resolve tick watch with
      | mk read ans =>
        rw [hres] at href hans
        rw [← href] at hold
        cases ans with
        | none =>
          have hread : read.result = none := by
            have hkept := (resolve_kept tick watch).2
            rwa [hres, hnone] at hkept
          have hnamed : read.ref ≠ "" ∧ (read.green = true → read.sha ≠ "") := by
            refine ⟨href ▸ (hinv.memory.watch_named watch hwatch).1, fun hgreen ↦ ?_⟩
            rw [Watch.green, hread] at hgreen
            cases hgreen
          rw [keeps_editPayload]
          refine ⟨hinv.setWatch hnamed fun old hold' hsame hgreen ↦ ?_, ?_⟩
          · exact absurd hgreen (hold old hold' hsame)
          · exact href ▸ .setWatch world memory.payload read
        | some result =>
          have hnamed : read.ref ≠ "" ∧
              (({ read with result := some result } : Watch).green = true →
                ({ read with result := some result } : Watch).sha ≠ "") := by
            refine ⟨href ▸ (hinv.memory.watch_named watch hwatch).1, fun hgreen ↦ ?_⟩
            have hsha : result.mergeSha ≠ "" :=
              resolve_green tick (by rw [hres]) (by simpa [Watch.green] using hgreen)
            simp [Watch.sha, hsha]
          refine .bind (saveWatch_keeps hinv rfl hnamed fun _ old hold' hsame hgreen ↦
            absurd hgreen (hold old hold' hsame)) ?_
          rintro _ w' mem' ⟨hinv', hload, hcards⟩
          have helse : Elsewhere watch.ref world memory.payload w' mem'.payload := by
            rw [hload, ← href]
            exact { Elsewhere.setWatch world memory.payload { read with result := some result } with
              cards := hcards }
          have hmem : ({ read with result := some result } : Watch) ∈ mem'.payload.watches := by
            rw [hload]
            exact mem_setWatch.mpr (.inr rfl)
          refine (publishWatch_keeps tick hinv' hmem hplace fun hcln ↦ ?_).mono ?_
          · rw [hload, hcards, ← hans]
            exact hown hcln
          · rintro _ _ _ ⟨hinv'', helse'⟩
            exact ⟨hinv'', helse.trans (href ▸ helse')⟩

theorem reconcileWatches_keeps (hplace : clean → AllAfterMerge tick)
    (hqable : clean → ∀ watch ∈ memory.payload.watches, Queueable world.cards memory.payload (watch.answered tick)) :
    Keeps clean (reconcileWatches tick)
      (fun _ world' memory' ↦ Inv clean False world' memory'.payload) world memory := by
  have hnodup : ((memory.payload.watches.map Watch.ref).insertionSort (· ≤ ·)).Nodup :=
    (List.perm_insertionSort _ _).nodup_iff.mpr hinv.memory.watch_once
  rw [reconcileWatches, keeps_recallPayload]
  refine .mono (Keeps.forM (fun rest world' memory' ↦ Inv clean False world' memory'.payload ∧
    rest.Nodup ∧ (clean → ∀ watch ∈ memory'.payload.watches, watch.ref ∈ rest →
      Queueable world'.cards memory'.payload (watch.answered tick))) _ ?_ ?_) fun _ _ _ hend ↦ hend.1
  · exact ⟨hinv, hnodup, fun hcln watch hwatch _ ↦ hqable hcln watch hwatch⟩
  · rintro ref rest world' memory' ⟨hinv', hnodup', hqueueable'⟩
    rw [List.nodup_cons] at hnodup'
    refine (reconcileWatch_keeps tick hinv' ref hplace fun hcln watch hwatch href ↦
      hqueueable' hcln watch hwatch (by simp [href])).mono ?_
    rintro _ _ _ ⟨hinv'', helse⟩
    refine ⟨hinv'', hnodup'.2, fun hcln watch hwatch href ↦ ?_⟩
    have hne : watch.ref ≠ ref := fun hsame ↦ hnodup'.1 (hsame ▸ href)
    exact (hqueueable' hcln watch (helse.watches watch hwatch hne) (by simp [href])).elsewhere helse
      (answered_ref tick watch ▸ hne)

end Reconcile

/-! ### Events -/

section Events

variable {clean : Prop} {world : AmWorld} {memory : AmMemory}

/-- A landing whose card has no green watch replaces none. -/
theorem openWatch_keeps (landing : Landing) (hinv : Inv clean False world memory.payload)
    (hred : clean → ∀ watch ∈ memory.payload.watches, watch.ref = landing.ref → watch.green ≠ true) :
    Keeps clean (openWatch landing)
      (fun _ world' memory' ↦ Inv clean False world' memory'.payload) world memory := by
  have hopened : landing.watch.ref ≠ "" ∧ (landing.watch.green = true → landing.watch.sha ≠ "") :=
    ⟨landing.ref_ne_empty, nofun⟩
  have hnone : clean → ∀ old ∈ memory.payload.watches, old.ref = landing.watch.ref → old.green = true →
      landing.watch.green = true ∧ landing.watch.sha = old.sha :=
    fun hcln old hold href hgreen ↦ absurd hgreen (hred hcln old hold href)
  have hopen : memory.payload.land landing = memory.payload.setWatch landing.watch →
      Keeps clean (openWatch landing) (fun _ world' memory' ↦ Inv clean False world' memory'.payload) world memory :=
    fun hland ↦ (saveWatch_keeps hinv hland hopened hnone).mono fun _ _ _ hend ↦ hend.1
  cases hfnd : memory.payload.watch landing.ref with
  | none => exact hopen (by rw [land, hfnd])
  | some existing =>
    obtain ⟨_, href⟩ := watch_eq_some hfnd
    cases hres : existing.result with
    | some res => exact hopen (by simp [land, hfnd, hres])
    | none =>
      by_cases hsha : existing.mergeSha = ""
      · have hland : memory.payload.land landing =
            memory.payload.setWatch { existing with mergeSha := landing.sha } := by
          simp [land, hfnd, hres, hsha]
        have hgray : ({ existing with mergeSha := landing.sha } : Watch).green ≠ true := by
          simp [Watch.green, hres]
        refine (saveWatch_keeps hinv hland ⟨href ▸ landing.ref_ne_empty, fun hgreen ↦ ?_⟩ ?_).mono
          fun _ _ _ hend ↦ hend.1
        · exact absurd hgreen hgray
        · exact fun hcln old hold hsame hgreen ↦
            absurd hgreen (hred hcln old hold (hsame.trans href))
      · have hland : memory.payload.land landing = memory.payload := by
          simp [land, hfnd, hres, hsha]
        refine (saveRest_keeps hinv ?_ ?_ ?_).mono fun _ _ _ hend ↦ hend.1
        all_goals rw [hland]

theorem amTick_keeps (project : String) (tick : AmTick) (hinv : Inv clean False world memory.payload)
    (hplace : clean → AllAfterMerge tick) (hcode : clean → ∀ ref, tick.isCode ref = true)
    (hqable : clean → ∀ watch ∈ memory.payload.watches, Queueable world.cards memory.payload (watch.answered tick)) :
    Keeps clean (amTick project tick)
      (fun _ world' memory' ↦ Inv clean False world' memory'.payload) world memory := by
  refine .bind (reconcileWatches_keeps tick hinv hplace hqable) fun _ _ _ hinv₁ ↦ ?_
  refine .bind (reconcileAfterMerge_keeps project tick hinv₁ hcode) fun _ _ _ hinv₂ ↦ ?_
  exact (save_keeps hinv₂).mono fun _ _ _ hend ↦ hend.2.2

/-- The events that lose no merge. A merge lands when its card's watch holds no green result; a tick reads
code cards of a project that runs its e2e after the merge, and no merge becomes green while another merge
of its card is pending or in flight, or is the one the card's mark declines. -/
def Orderly (world : AmWorld) : AmEvent → Prop
  | .landing landing => ∀ watch ∈ world.saved.watches, watch.ref = landing.ref → watch.green ≠ true
  | .tick tick => AllAfterMerge tick ∧ (∀ ref, tick.isCode ref = true) ∧
      ∀ watch ∈ world.saved.watches, Queueable world.cards world.saved (watch.answered tick)

/-- Every write of an event follows. -/
theorem amStep_follows (project : String) (event : AmEvent) (hinv : Inv clean False world world.saved)
    (hord : clean → Orderly world event) :
    (world :: (amStep project event world world.loaded).writes).IsChain (Follows clean) := by
  cases event with
  | landing landing => exact (openWatch_keeps landing hinv hord).1
  | tick tick =>
    exact (amTick_keeps project tick hinv (fun hcln ↦ (hord hcln).1)
      (fun hcln ↦ (hord hcln).2.1) fun hcln ↦ (hord hcln).2.2).1

end Events

/-! ### Histories -/

/-- A board before any after-merge e2e. -/
def AmWorld.untouched (cards : String → E2eState) : AmWorld where
  cards ref := { cards ref with afterMerge := none, afterMergeRuns := [] }

theorem inv_untouched (clean : Prop) (cards : String → E2eState) :
    Inv clean False (untouched cards) (untouched cards).saved := by
  have hqueue : QueueOk (untouched cards).board {} :=
    ⟨List.nodup_nil, nofun, nofun, nofun, nofun, List.nodup_nil, nofun⟩
  have hheld : HeldOk (untouched cards).board [] {} :=
    ⟨nofun, fun _ _ hmark ↦ (nomatch hmark), nofun⟩
  exact {
    board := ⟨fun _ _ hrun ↦ (nomatch hrun), fun _ _ _ hrun ↦ (nomatch hrun), fun _ _ hmark ↦ (nomatch hmark),
      fun _ _ hid ↦ (nomatch hid), fun _ _ _ hmark ↦ (nomatch hmark)⟩
    log := ⟨nofun, fun _ _ hrun ↦ (nomatch hrun), nofun, List.nodup_nil, List.nodup_nil, nofun, nofun⟩
    slot := ⟨nofun, fun _ _ hrun ↦ (nomatch hrun)⟩
    saved := hqueue
    memory := hqueue
    run_eq := rfl
    sync := nofun
    ready := False.elim
    held := fun _ ↦ ⟨hheld, hheld⟩ }

section Histories

variable {clean : Prop} {project : String} {start : AmWorld} {history : List (AmEvent × Option ℕ)}

/-- Every write of a history follows, if its events are in order or merges may be lost. -/
theorem history_follows (hinv : Inv clean False start start.saved)
    (hadm : Admitted (amStep project) loaded (fun world event ↦ clean → Orderly world event) start history) :
    (start :: visited (amStep project) loaded start history).IsChain (Follows clean) :=
  visited_isChain_of_admitted (fun world ↦ Inv clean False world world.saved) hadm hinv
    (fun _ event hworld hord ↦ amStep_follows project event hworld hord)
    fun _ _ _ hnext ↦ hnext.1

/-- The invariant holds of every durable state of a history. -/
theorem history_inv (hinv : Inv clean False start start.saved)
    (hchain : (start :: visited (amStep project) loaded start history).IsChain (Follows clean)) :
    ∀ world ∈ start :: visited (amStep project) loaded start history,
      Inv clean False world world.saved := by
  intro world hworld
  obtain rfl | hworld := List.mem_cons.mp hworld
  · exact hinv
  · exact (isChain_invariant (fun world ↦ Inv clean False world world.saved) hinv hchain
      fun _ _ _ hnext ↦ hnext.1).1 world hworld

/-- Whatever happens, every write of a history follows but for lost merges. -/
theorem anyHistory_follows (project : String) (cards : String → E2eState) (history : List (AmEvent × Option ℕ)) :
    (untouched cards :: visited (amStep project) loaded (untouched cards)
      history).IsChain (Follows False) := by
  refine history_follows (inv_untouched False cards) ?_
  exact Admitted.mono (fun _ _ _ ↦ False.elim) (admitted_true _ history)

end Histories

section Results

variable (project : String) (cards : String → E2eState) (history : List (AmEvent × Option ℕ))

/-- No pair is pending twice, whatever happens. If the events are in order, every merge whose watch was
saved with a green result is held from then on. -/
theorem greenMerge_held :
    let start := AmWorld.untouched cards
    let worlds := start :: visited (amStep project) AmWorld.loaded start history
    (∀ world ∈ worlds, (world.saved.pending.map Entry.pair).Nodup) ∧
      (Admitted (amStep project) AmWorld.loaded Orderly start history →
        ∀ world ∈ worlds, ∀ pair ∈ world.answeredGreen, Held world.board world.saved pair) := by
  intro _ _
  refine ⟨fun world hworld ↦ ?_, fun hadm world hworld pair hpair ↦ ?_⟩
  · have hinv := history_inv (inv_untouched False cards) (anyHistory_follows project cards history) world
      hworld
    have hrefs : ((world.saved.pending.map Entry.pair).map Covered.ref).Nodup := by
      rw [List.map_map]
      exact hinv.saved.pending_once
    exact hrefs.of_map
  · have hchain := history_follows (inv_untouched True cards) (Admitted.mono (fun _ _ hord _ ↦ hord) hadm)
    have hinv := history_inv (inv_untouched True cards) hchain world hworld
    exact (hinv.held trivial).1.held pair hpair

/-- A tick that finds every merge green, the cards' caps spent, and the adapter unreadable when a run would
start. -/
def greenTick : AmTick where
  mergeCommit _ := ""
  watchRepo _ := some "owner/repo"
  ci _ := some true
  timedOut _ := false
  placement _ := .ok (some ⟨"e2e.yml", "60m", "", true⟩)
  declaration := .error "unreadable"
  lookupDeclaration := .error "unreadable"
  isCode _ := true
  title _ := ""
  sprintOf _ := ""
  sprintOpen _ := .ok false
  cap _ := 0
  hasOrigin _ := false
  repo := .ok "owner/repo"
  compare _ _ := .ok true
  token := ⟨"1f", by decide, by decide⟩
  room := false
  budget := ⟨0, 0⟩
  createRef := .ok ()
  dispatch := .unanswered ""
  intentNow := 0
  settleNow _ := 0
  windowNow _ := 0
  headSha _ := .error ""
  listedRuns _ := .ok []
  createdWait _ := ""
  wait _ := .pending
  redEvidence _ := ("", "")
  hotfixRef _ := ⟨"F-1", by decide⟩
  hotfixReady _ := false
  sprintBudget _ := none
  decisionRead _ := .missing
  decisionRef _ := ""
  decisionText _ := ""
  decisionLists _ := .ok false
  deleteRef _ := .ok ()
  refuse _ := none
  unreadable _ := none
  recoverySettle := 0
  identifyWindow := 0
  utcText _ := ""
  oneLine _ text := text

/-- A merge of a card outside every sprint. -/
def landed (ref sha : String) (href : ref ≠ "") (now : ℕ) : AmEvent :=
  .landing ⟨ref, href, sha, "", "main", "topic", "", now⟩

/-- A green merge that waits for the adapter is held. -/
theorem greenMerge_held_witness :
    let start := AmWorld.untouched fun _ ↦ {}
    ∃ world ∈ visited (amStep "p") AmWorld.loaded start
        [(landed "A" "m1" (by decide) 0, none), (.tick greenTick, none)],
      ⟨"A", "m1"⟩ ∈ world.answeredGreen ∧ Held world.board world.saved ⟨"A", "m1"⟩ := by
  intro start
  have hadm : Admitted (amStep "p") AmWorld.loaded Orderly start
      [(landed "A" "m1" (by decide) 0, none), (.tick greenTick, none)] := by
    refine ⟨nofun, ⟨?_, fun _ ↦ rfl, fun _ _ _ ↦ ⟨nofun, nofun⟩⟩, trivial⟩
    rintro _ _ hdecl
    cases hdecl
    decide
  have hans : ∃ world ∈ visited (amStep "p") AmWorld.loaded start
      [(landed "A" "m1" (by decide) 0, none), (.tick greenTick, none)],
      ⟨"A", "m1"⟩ ∈ world.answeredGreen := by decide +kernel
  obtain ⟨world, hworld, hpair⟩ := hans
  exact ⟨world, hworld, hpair, (greenMerge_held "p" (fun _ ↦ {}) _).2 hadm world
    (List.mem_cons_of_mem _ hworld) _ hpair⟩

/-- A card lands again while its first merge is pending. -/
def relanding : List (AmEvent × Option ℕ) :=
  [(landed "A" "m1" (by decide) 0, none), (.tick greenTick, none),
    (landed "A" "m2" (by decide) 1, none), (.tick greenTick, none)]

def relanded : AmWorld :=
  (visited (amStep "p") AmWorld.loaded (AmWorld.untouched fun _ ↦ {}) relanding).getLastD {}

theorem relanded_cards : relanded.cards = fun ref ↦
    if ref = "A" then { afterMerge := some { mergeSha := "m1" } } else {} := by
  rfl

/-- A card's second merge becomes green while its first is pending: its watch is dropped, and nothing holds
the merge. -/
theorem relanding_lost :
    relanded ∈ visited (amStep "p") AmWorld.loaded (AmWorld.untouched fun _ ↦ {}) relanding ∧
      ⟨"A", "m2"⟩ ∈ relanded.answeredGreen ∧ ¬ Held relanded.board relanded.saved ⟨"A", "m2"⟩ := by
  have hgreen : relanded.saved.greens = [] := by decide +kernel
  have hlist : relanded.saved.entries.map Entry.pair = [⟨"A", "m1"⟩] := by decide +kernel
  have hvisited : visited (amStep "p") AmWorld.loaded (AmWorld.untouched fun _ ↦ {}) relanding ≠ [] := by
    intro hnil
    have hlen := congrArg List.length hnil
    exact absurd hlen (by decide +kernel)
  have hlast : relanded = (visited (amStep "p") AmWorld.loaded (AmWorld.untouched fun _ ↦ {})
      relanding).getLast hvisited := by
    rw [relanded, List.getLastD_eq_getLast?, List.getLast?_eq_some_getLast hvisited, Option.getD_some]
  refine ⟨hlast ▸ List.getLast_mem hvisited, by decide +kernel, ?_⟩
  rintro (hwatch | ⟨_, hent, hpair⟩ | ⟨_, _, hrun, -⟩ | ⟨_, hmark, hdecl, -⟩)
  · simp [hgreen] at hwatch
  · have hmem := List.mem_map_of_mem (f := Entry.pair) hent
    rw [hlist, hpair] at hmem
    simp at hmem
  · simp only [AmWorld.board, relanded_cards] at hrun
    split at hrun <;> simp at hrun
  · simp only [AmWorld.board, relanded_cards, if_true, Option.some.injEq] at hmark
    simp [← hmark] at hdecl

/-- In every history a run is paid in the write that records its intent and dispatched once after it, one
run at most is not acted on, a green or red mark goes back to a run that ran on its target and covers the
mark's merge, and a run has one hotfix card at most. -/
theorem afterMergeRun_dispatchedOnce_and_attached :
    let start := AmWorld.untouched cards
    let worlds := start :: visited (amStep project) AmWorld.loaded start history
    worlds.IsChain PaidStep ∧ ∀ world ∈ worlds,
      (∀ (ref ref' : String) (i i' : ℕ) (run run' : E2eRun), (world.board.runs ref)[i]? = some run → run.acted = false →
        (world.board.runs ref')[i']? = some run' → run'.acted = false → ref = ref' ∧ i = i') ∧
      (world.dispatches.map Dispatch.dispatchId).Nodup ∧
      (∀ ref mark resolution, world.board.mark ref = some mark → mark.state.ended = some resolution →
        ∃ run ∈ world.board.runs mark.carrier, run.dispatchId = mark.dispatchId ∧
          run.resolution = some resolution ∧ run.headSha = run.sha ∧
          ⟨ref, mark.mergeSha⟩ ∈ run.covered ∧
          ⟨run.dispatchId, mark.mergeSha, run.sha⟩ ∈ world.compared) ∧
      ∀ id, (world.committed.filter (·.name = .hotfix id)).length ≤ 1 := by
  intro _ _
  have hchain := anyHistory_follows project cards history
  refine ⟨hchain.imp fun _ _ hnext ↦ hnext.2, fun world hworld ↦ ?_⟩
  have hinv := history_inv (inv_untouched False cards) hchain world hworld
  refine ⟨?_, hinv.log.sent_once, ?_, fun id ↦ ?_⟩
  · intro ref ref' _ _ run run' hrun hopen hrun' hopen'
    obtain ⟨fl, hfly, -, hid⟩ := hinv.slot.unacted ref run (List.mem_of_getElem? hrun) hopen
    obtain ⟨flight', hflight', -, hid'⟩ := hinv.slot.unacted ref' run' (List.mem_of_getElem? hrun') hopen'
    obtain rfl : fl = flight' := Option.mem_unique hfly hflight'
    exact hinv.board.unique_place hrun hrun' (hid.symm.trans hid')
  · intro ref mark resolution hmark hended
    obtain ⟨run, hrun, hid, hresolution, hcov⟩ := hinv.board.ended ref mark resolution hmark hended
    have hsol : run.resolution = some .green ∨ run.resolution = some .red := by
      cases hstate : mark.state <;> simp_all [MarkState.ended]
    have hok := hinv.board.run_ok _ run hrun
    exact ⟨run, hrun, hid, hresolution, hok.head_of_result (hok.result_of_ended hsol), hcov,
      hinv.log.compared _ run hrun _ hcov⟩
  · have honce := hinv.log.names_once.sublist ((List.filter_sublist (p := (·.name = .hotfix id))).map Request.name)
    have hnames : (world.committed.filter (·.name = .hotfix id)).map Request.name =
        List.replicate (world.committed.filter (·.name = .hotfix id)).length (.hotfix id) := by
      rw [List.eq_replicate_iff, List.length_map]
      refine ⟨rfl, fun name hname ↦ ?_⟩
      obtain ⟨_, hreq, rfl⟩ := List.mem_map.mp hname
      simpa using (List.mem_filter.mp hreq).2
    rwa [hnames, List.nodup_replicate] at honce

/-- In every history a request that was refused is one that is built anew at every attempt, and is of the
kind and on the card of the committed one. -/
theorem refused_rebuilt :
    let start := AmWorld.untouched cards
    ∀ world ∈ start :: visited (amStep project) AmWorld.loaded start history,
      ∀ request ∈ world.conflicts, request.name.Rebuilt ∧
        ∃ known ∈ world.committed, known.name = request.name ∧ known.kind = request.kind ∧
          known.card = request.card := by
  intro _ world hworld
  exact (history_inv (inv_untouched False cards) (anyHistory_follows project cards history) world
    hworld).log.conflicts

end Results

/-- A tick that finds some merges green, and declines the batch since the caps are spent. -/
def spentTick (green : String → Bool) : AmTick :=
  { greenTick with
    ci := fun sha ↦ if green sha then some true else none
    declaration := .ok (some ⟨"e2e.yml", "60m", "", true⟩) }

/-- A card is declined, and the tick is cut before the card is marked; another card is green at the next
tick. -/
def growingBatch : List (AmEvent × Option ℕ) :=
  [(landed "A" "m1" (by decide) 0, none), (landed "B" "m2" (by decide) 1, none),
    (.tick (spentTick (· = "m1")), some 9), (.tick (spentTick fun _ ↦ true), none)]

theorem refused_rebuilt_witness :
    ∃ world ∈ visited (amStep "p") AmWorld.loaded (AmWorld.untouched fun _ ↦ {}) growingBatch,
      ∃ request ∈ world.conflicts, request.name.Rebuilt := by
  have hdeny : ∃ world ∈ visited (amStep "p") AmWorld.loaded (AmWorld.untouched fun _ ↦ {}) growingBatch,
      ∃ request ∈ world.conflicts, True := by decide +kernel
  obtain ⟨world, hworld, request, hreq, -⟩ := hdeny
  exact ⟨world, hworld, request, hreq,
    (refused_rebuilt "p" (fun _ ↦ {}) growingBatch world (List.mem_cons_of_mem _ hworld) request hreq).1⟩

/-- The comment on the declined card lists the batch, which has grown: it is refused. -/
theorem declined_refused :
    ∃ world ∈ visited (amStep "p") AmWorld.loaded (AmWorld.untouched fun _ ↦ {}) growingBatch,
      ∃ request ∈ world.conflicts, ∃ known ∈ world.committed,
        known.name = .declined "A" "cap" ∧ request.name = known.name ∧ request.body ≠ known.body := by
  decide +kernel

end Ummanu.E2e
