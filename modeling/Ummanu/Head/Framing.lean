import Mathlib

/-!
# How a supervisor cuts a caller's bytes into requests

A caller of the supervisor's socket sends lines, and the kernel hands them over in chunks that need not end
where a line does. The module embeds `_read_client`, which keeps what is not yet a whole line in the caller's
inbox, hands every whole line to `_handle`, and refuses a line that grows over `FRAME_MAX_BYTES`; and `_send`
and `_flush`, which let a refused caller go once nothing waits for its socket.

The limit is looked at when the inbox holds no newline, so a line that ends in the chunk that takes it over the
limit is handled (`readClient_overlongLine`). `readClient_chunking_iff` says for which streams the chunks do
not show: those in which every line fits the limit and at most one byte over it stands after the last newline.

What a request does is left out, as are the end of a caller's stream and errors of its socket.
-/

set_option autoImplicit false

namespace Ummanu.Head

def newline : UInt8 := 10

/-- `FRAME_MAX_BYTES`: a payload of `INPUT_MAX_BYTES` in base64, and its envelope. -/
def frameMaxBytes : ℕ := (64 * 1024 * 4 + 2) / 3 + 4096

/-- What `_read_client` does for a caller. -/
inductive ClientAct
  | handled (line : List UInt8)
  | frameTooLarge (sizeBytes : ℕ)

/-- `_Client`, with what was done for it: `pending` is that bytes wait for its socket, `gone` is
`_close_client`. -/
structure Caller where
  inbox : List UInt8 := []
  pending : Bool := false
  closing : Bool := false
  gone : Bool := false
  acts : List ClientAct := []

/-- `_flush`: `room` is whether the socket takes all that waits for it. -/
def Caller.flush (caller : Caller) (room : Bool) : Caller :=
  let pending := caller.pending && !room
  { caller with pending, gone := caller.gone || (caller.closing && !pending) }

/-- `_send` of the answer to a line, or of a refusal. -/
def Caller.send (caller : Caller) (room : ℕ → Bool) (act : ClientAct) : Caller :=
  { caller with acts := caller.acts ++ [act], pending := true }.flush (room caller.acts.length)

/-- The loop of `_read_client` on the inbox. `line` is the part of it that was looked at for a newline. -/
def Caller.takeLines (caller : Caller) (room : ℕ → Bool) (line : List UInt8) : List UInt8 → Caller
  | [] =>
    if frameMaxBytes < line.length then
      -- `closing` is set after the flush: a first refusal does not let the caller go, a second one does
      { caller.send room (.frameTooLarge line.length) with inbox := [], closing := true }
    else { caller with inbox := line }
  | byte :: rest =>
    if byte = newline then
      let caller := caller.send room (.handled line)
      if caller.closing then { caller with inbox := rest } else caller.takeLines room [] rest
    else caller.takeLines room (line ++ [byte]) rest

/-- `_read_client` on the bytes of one `recv`. -/
def readClient (room : ℕ → Bool) (caller : Caller) (data : List UInt8) : Caller :=
  if caller.gone then caller else caller.takeLines room [] (caller.inbox ++ data)

/-- What the supervisor's loop does with a caller: it reads it, or flushes it because the socket has room again
or because the head's output was pushed to it. -/
inductive SocketEvent
  | recv (data : List UInt8)
  | flush (output room : Bool)

def Caller.step (room : ℕ → Bool) (caller : Caller) : SocketEvent → Caller
  | .recv data => readClient room caller data
  | .flush output taken =>
    let pending := caller.pending || output
    if caller.gone || !pending then caller else { caller with pending }.flush taken

/-- The caller after these events; `room n` is whether its `n`-th answer leaves nothing waiting. -/
def Caller.after (room : ℕ → Bool) (caller : Caller) (events : List SocketEvent) : Caller :=
  events.foldl (Caller.step room) caller

def received (events : List SocketEvent) : List (List UInt8) :=
  events.filterMap fun
    | .recv data => some data
    | .flush .. => none

/-- The stream arrives in these events, in chunks that `recv(_READ_CHUNK)` may answer. -/
structure Delivers (events : List SocketEvent) (stream : List UInt8) : Prop where
  chunk : ∀ data ∈ received events, 0 < data.length ∧ data.length ≤ 65536
  whole : (received events).flatten = stream

/-! ### Lines of a stream -/

/-- The lines of a stream, and what stands after the last newline. -/
abbrev pieces (stream : List UInt8) : List (List UInt8) := stream.splitOnP (· = newline)

/-- Every line fits the limit, and the rest is at most one byte over it. -/
def Framed (stream : List UInt8) : Prop :=
  (∀ line ∈ (pieces stream).dropLast, line.length ≤ frameMaxBytes) ∧
    ∀ rest ∈ (pieces stream).getLast?, rest.length ≤ frameMaxBytes + 1

/-- What a stream asks for: its lines are handled, and the rest is refused if it is over the limit. -/
def requests (stream : List UInt8) : List ClientAct :=
  (pieces stream).dropLast.map .handled ++
    ((pieces stream).getLast?.filter (frameMaxBytes < ·.length)).toList.map (.frameTooLarge ·.length)

variable {line : List UInt8}

theorem not_newline_of_unbroken (hline : newline ∉ line) : ∀ byte ∈ line, decide (byte = newline) = false := by
  intro _ hmem
  exact decide_eq_false (ne_of_mem_of_not_mem hmem hline)

theorem pieces_of_unbroken (hline : newline ∉ line) : pieces line = [line] :=
  List.splitOnP_eq_singleton (not_newline_of_unbroken hline)

theorem pieces_line (hline : newline ∉ line) (rest : List UInt8) :
    ∃ next more, pieces rest = next :: more ∧ pieces (line ++ newline :: rest) = line :: next :: more := by
  obtain ⟨next, more, hrest⟩ := List.exists_cons_of_ne_nil (List.splitOnP_ne_nil (· = newline) rest)
  refine ⟨next, more, hrest, ?_⟩
  rw [← hrest]
  exact List.splitOnP_append_cons_of_forall_mem (not_newline_of_unbroken hline) _ (by simp) rest

theorem framed_line_iff (hline : newline ∉ line) (rest : List UInt8) :
    Framed (line ++ newline :: rest) ↔ line.length ≤ frameMaxBytes ∧ Framed rest := by
  obtain ⟨_, _, hrest, hall⟩ := pieces_line hline rest
  simp [Framed, hrest, hall, and_assoc]

theorem framed_unbroken_iff (hline : newline ∉ line) : Framed line ↔ line.length ≤ frameMaxBytes + 1 := by
  simp [Framed, pieces_of_unbroken hline]

theorem requests_line (hline : newline ∉ line) (rest : List UInt8) :
    requests (line ++ newline :: rest) = .handled line :: requests rest := by
  obtain ⟨_, _, hrest, hall⟩ := pieces_line hline rest
  simp [requests, hrest, hall]

theorem requests_unbroken (hline : newline ∉ line) :
    requests line = if frameMaxBytes < line.length then [.frameTooLarge line.length] else [] := by
  split <;> simp_all [requests, pieces_of_unbroken hline]

theorem length_le_of_handled {stream : List UInt8} (hframed : Framed stream)
    (hline : .handled line ∈ requests stream) : line.length ≤ frameMaxBytes := by
  simp only [requests, List.mem_append, List.mem_map, ClientAct.handled.injEq, exists_eq_right, reduceCtorEq,
    and_false, exists_false, or_false] at hline
  exact hframed.1 line hline

/-- What is followed by more bytes fits the limit. -/
theorem length_le_of_framed (hline : newline ∉ line) {more : List UInt8} (hmore : more ≠ [])
    (hframed : Framed (line ++ more)) : line.length ≤ frameMaxBytes := by
  by_cases hbreak : newline ∈ more
  · obtain ⟨pre, rest, rfl, hpre⟩ := List.eq_append_cons_of_mem hbreak
    rw [← List.append_assoc, framed_line_iff (by simp [hline, hpre])] at hframed
    exact Nat.le_trans (by simp) hframed.1
  · rw [framed_unbroken_iff (by simp [hline, hbreak]), List.length_append] at hframed
    have := List.length_pos_iff.mpr hmore
    omega

/-! ### Streams whose chunks do not show -/

/-- With `more` still to come, the caller gets to `acts`, and it is read until then. -/
structure Caller.Awaits (caller : Caller) (more : List UInt8) (acts : List ClientAct) : Prop where
  unbroken : newline ∉ caller.inbox
  short : caller.inbox.length ≤ frameMaxBytes
  framed : Framed (caller.inbox ++ more)
  acts : caller.acts ++ requests (caller.inbox ++ more) = acts
  live : more ≠ [] → caller.closing = false ∧ caller.gone = false

variable {caller : Caller} {acts : List ClientAct} {more : List UInt8}

open Caller

@[simp] theorem Caller.send_closing (room : ℕ → Bool) (act : ClientAct) :
    (caller.send room act).closing = caller.closing := rfl

@[simp] theorem Caller.send_acts (room : ℕ → Bool) (act : ClientAct) :
    (caller.send room act).acts = caller.acts ++ [act] := rfl

theorem Caller.send_gone (room : ℕ → Bool) (act : ClientAct) (hopen : caller.closing = false) :
    (caller.send room act).gone = caller.gone := by
  simp [send, flush, hopen]

theorem Caller.takeLines_awaits (room : ℕ → Bool) (bytes : List UInt8) (hline : newline ∉ line)
    (hopen : caller.closing = false) (hhere : caller.gone = false) (hframed : Framed (line ++ bytes ++ more)) :
    (caller.takeLines room line bytes).Awaits more (caller.acts ++ requests (line ++ bytes ++ more)) := by
  induction bytes generalizing caller line with
  | nil =>
    rw [List.append_nil] at hframed ⊢
    rw [takeLines]
    split
    case isTrue hlong =>
      -- the stream ends with the first byte over the limit, however it was cut
      have hend : more = [] := by
        by_contra hmore
        exact Nat.not_lt.mpr (length_le_of_framed hline hmore hframed) hlong
      subst hend
      rw [List.append_nil] at hframed ⊢
      refine ⟨List.not_mem_nil, Nat.zero_le _, (framed_unbroken_iff List.not_mem_nil).mpr (Nat.zero_le _), ?_,
        fun hmore ↦ absurd rfl hmore⟩
      simp [requests_unbroken hline, requests_unbroken List.not_mem_nil, hlong]
    case isFalse hlong => exact ⟨hline, Nat.not_lt.mp hlong, hframed, rfl, fun _ ↦ ⟨hopen, hhere⟩⟩
  | cons byte rest ih =>
    rw [takeLines]
    split
    case isTrue hbyte =>
      subst hbyte
      have hcut : line ++ newline :: rest ++ more = line ++ newline :: (rest ++ more) := by simp
      rw [hcut] at hframed ⊢
      dsimp only
      rw [if_neg (by simp [hopen])]
      have hnext := @ih [] (caller.send room (.handled line)) List.not_mem_nil hopen
        ((send_gone room _ hopen).trans hhere) ((framed_line_iff hline _).mp hframed).2
      rw [requests_line hline]
      simpa using hnext
    case isFalse hbyte =>
      have hcut : line ++ byte :: rest ++ more = line ++ [byte] ++ rest ++ more := by simp
      rw [hcut] at hframed ⊢
      exact ih (by simp [hline, Ne.symm hbyte]) hopen hhere hframed

/-- The loop passes over what it has looked at before. -/
theorem Caller.takeLines_append (caller : Caller) (room : ℕ → Bool) {bytes : List UInt8} (line more : List UInt8)
    (hbytes : newline ∉ bytes) :
    caller.takeLines room line (bytes ++ more) = caller.takeLines room (line ++ bytes) more := by
  induction bytes generalizing line with
  | nil => simp
  | cons _ _ ih =>
    obtain ⟨hbyte, hrest⟩ := not_or.mp (mt List.mem_cons.mpr hbytes)
    rw [List.cons_append, takeLines, if_neg (Ne.symm hbyte), ih _ hrest, List.append_assoc]
    rfl

theorem readClient_eq (room : ℕ → Bool) (hhere : caller.gone = false) (hwhole : newline ∉ caller.inbox)
    (data : List UInt8) : readClient room caller data = caller.takeLines room caller.inbox data := by
  rw [readClient, if_neg (by simp [hhere]), takeLines_append _ _ _ _ hwhole]
  rfl

theorem Caller.Awaits.recv (room : ℕ → Bool) {data : List UInt8} (hdata : 0 < data.length)
    (hawaits : caller.Awaits (data ++ more) acts) : (readClient room caller data).Awaits more acts := by
  have hmore : data ++ more ≠ [] := by simp [List.length_pos_iff.mp hdata]
  obtain ⟨hopen, hhere⟩ := hawaits.live hmore
  rw [readClient_eq room hhere hawaits.unbroken, ← hawaits.acts, ← List.append_assoc]
  exact takeLines_awaits room data hawaits.unbroken hopen hhere (by simpa using hawaits.framed)

/-- A flush lets only a refused caller go, and of a refused one nothing is awaited. -/
theorem Caller.Awaits.flush (room : ℕ → Bool) (output taken : Bool) (hawaits : caller.Awaits more acts) :
    (caller.step room (.flush output taken)).Awaits more acts := by
  rw [step]
  split
  · exact hawaits
  · refine ⟨hawaits.unbroken, hawaits.short, hawaits.framed, hawaits.acts, fun hmore ↦ ?_⟩
    obtain ⟨hopen, hhere⟩ := hawaits.live hmore
    simp [Caller.flush, hopen, hhere]

theorem Caller.Awaits.after (room : ℕ → Bool) {events : List SocketEvent} {stream : List UInt8}
    (hdelivers : Delivers events stream) (hawaits : caller.Awaits stream acts) :
    (caller.after room events).acts = acts := by
  obtain ⟨hchunk, rfl⟩ := hdelivers
  induction events generalizing caller with
  | nil =>
    have hnone := requests_unbroken hawaits.unbroken
    rw [if_neg (Nat.not_lt.mpr hawaits.short)] at hnone
    have hacts := hawaits.acts
    rw [received, List.filterMap_nil, List.flatten_nil, List.append_nil, hnone, List.append_nil] at hacts
    exact hacts
  | cons event rest ih =>
    cases event with
    | recv data =>
      obtain ⟨hdata, hrest⟩ := List.forall_mem_cons.mp hchunk
      exact ih hrest (hawaits.recv room hdata.1)
    | flush output taken => exact ih hchunk (hawaits.flush room output taken)

/-- However a framed stream is cut, and whenever the socket takes the answers, it gets what it asks for. -/
theorem after_acts (room : ℕ → Bool) {events : List SocketEvent} {stream : List UInt8} (hframed : Framed stream)
    (hdelivers : Delivers events stream) : (Caller.after room {} events).acts = requests stream :=
  Awaits.after room hdelivers ⟨List.not_mem_nil, Nat.zero_le _, hframed, rfl, fun _ ↦ ⟨rfl, rfl⟩⟩

/-! ### Streams whose chunks show -/

theorem Delivers.recv {events : List SocketEvent} {stream : List UInt8} (data : List UInt8)
    (hdelivers : Delivers events stream) (hpos : 0 < data.length) (hsize : data.length ≤ 65536) :
    Delivers (.recv data :: events) (data ++ stream) := by
  obtain ⟨hchunk, rfl⟩ := hdelivers
  exact ⟨List.forall_mem_cons.mpr ⟨⟨hpos, hsize⟩, hchunk⟩, rfl⟩

theorem exists_delivers (stream : List UInt8) : ∃ events, Delivers events stream := by
  induction stream with
  | nil => exact ⟨[], by simp [received], rfl⟩
  | cons byte _ ih =>
    obtain ⟨events, hevents⟩ := ih
    exact ⟨_, hevents.recv [byte] (by simp) (by simp)⟩

/-- What was done for a caller stays done. -/
theorem Caller.takeLines_acts (room : ℕ → Bool) (line bytes : List UInt8) :
    caller.acts <+: (caller.takeLines room line bytes).acts := by
  induction bytes generalizing caller line with
  | nil => rw [takeLines]; split <;> simp
  | cons _ _ ih =>
    rw [takeLines]
    dsimp only
    split
    · have hsent : caller.acts <+: (caller.send room (.handled line)).acts := by simp
      split
      · exact hsent
      · exact hsent.trans (ih _)
    · exact ih _

theorem Caller.step_acts (room : ℕ → Bool) (event : SocketEvent) :
    caller.acts <+: (caller.step room event).acts := by
  cases event with
  | recv =>
    rw [step, readClient]
    split
    · exact List.prefix_rfl
    · exact takeLines_acts room _ _
  | flush =>
    rw [step]
    split <;> exact List.prefix_rfl

theorem Caller.after_acts_prefix (caller : Caller) (room : ℕ → Bool) (events : List SocketEvent) :
    caller.acts <+: (caller.after room events).acts := by
  induction events generalizing caller with
  | nil => exact List.prefix_rfl
  | cons event _ ih => exact (step_acts room event).trans (ih _)

/-- A caller that is read, with this line begun. -/
structure Caller.Reads (caller : Caller) (line : List UInt8) (acts : List ClientAct) : Prop where
  inbox : caller.inbox = line
  acts : caller.acts = acts
  notClosing : caller.closing = false
  notGone : caller.gone = false

theorem Caller.Reads.recv (hreads : caller.Reads line acts) (room : ℕ → Bool) (hline : newline ∉ line)
    (data : List UInt8) : readClient room caller data = caller.takeLines room line data := by
  rw [readClient_eq room hreads.notGone (hreads.inbox ▸ hline), hreads.inbox]

theorem Caller.Reads.newline (hreads : caller.Reads line acts) (room : ℕ → Bool) (hline : newline ∉ line) :
    (caller.step room (.recv [newline])).Reads [] (acts ++ [.handled line]) := by
  obtain ⟨_, rfl, hopen, hhere⟩ := id hreads
  have hread : caller.step room (.recv [Head.newline]) =
      { caller.send room (.handled line) with inbox := [] } := by
    simp [step, hreads.recv room hline, takeLines, hopen]
  rw [hread]
  exact ⟨rfl, rfl, hopen, (send_gone room _ hopen).trans hhere⟩

theorem Caller.Reads.byte (hreads : caller.Reads line acts) (room : ℕ → Bool) (hline : Head.newline ∉ line)
    {byte : UInt8} (hbyte : byte ≠ Head.newline) (hshort : line.length < frameMaxBytes) :
    (caller.step room (.recv [byte])).Reads (line ++ [byte]) acts := by
  have hfits : ¬ frameMaxBytes < (line ++ [byte]).length := by
    rw [List.length_append, List.length_singleton]
    omega
  rw [step, hreads.recv room hline, takeLines, if_neg hbyte, takeLines, if_neg hfits]
  exact ⟨rfl, hreads.acts, hreads.notClosing, hreads.notGone⟩

/-- The byte that takes a line over the limit, alone in its chunk or with the byte after it. -/
theorem Caller.Reads.overlong (hreads : caller.Reads line acts) (room : ℕ → Bool) (hline : Head.newline ∉ line)
    {byte : UInt8} (hbyte : byte ≠ Head.newline) (hfull : line.length = frameMaxBytes) (next : UInt8) :
    (caller.step room (.recv [byte])).acts = acts ++ [.frameTooLarge (frameMaxBytes + 1)] ∧
      ∃ act, act ≠ .frameTooLarge (frameMaxBytes + 1) ∧
        (caller.step room (.recv [byte, next])).acts = acts ++ [act] := by
  obtain ⟨_, rfl, hopen, _⟩ := id hreads
  constructor
  · rw [step, hreads.recv room hline]
    simp [takeLines, hbyte, hfull]
  · rw [step, hreads.recv room hline, takeLines, if_neg hbyte, takeLines]
    split
    · exact ⟨.handled (line ++ [byte]), by simp, by simp [takeLines, hopen]⟩
    · exact ⟨.frameTooLarge (frameMaxBytes + 2), by simp, by simp [takeLines, hfull]⟩

/-- If a stream is not framed, cut it into single bytes, once with the byte that takes a line over the limit and
the one after it together. -/
theorem exists_acts_ne {first second : Caller} (room room' : ℕ → Bool) (stream : List UInt8)
    (hfirst : first.Reads line acts) (hsecond : second.Reads line acts) (hline : newline ∉ line)
    (hshort : line.length ≤ frameMaxBytes) (hover : ¬ Framed (line ++ stream)) :
    ∃ events events', Delivers events stream ∧ Delivers events' stream ∧
      (first.after room events).acts ≠ (second.after room' events').acts := by
  induction stream generalizing first second line acts with
  | nil =>
    rw [List.append_nil, framed_unbroken_iff hline] at hover
    omega
  | cons byte rest ih =>
    -- a byte that both runs get alone
    have alone {line' : List UInt8} {acts' : List ClientAct}
        (hone : (first.step room (.recv [byte])).Reads line' acts')
        (htwo : (second.step room' (.recv [byte])).Reads line' acts') (hline' : newline ∉ line')
        (hshort' : line'.length ≤ frameMaxBytes) (hover' : ¬ Framed (line' ++ rest)) :
        ∃ events events', Delivers events (byte :: rest) ∧ Delivers events' (byte :: rest) ∧
          (first.after room events).acts ≠ (second.after room' events').acts := by
      obtain ⟨events, events', hevents, hevents', hne⟩ := ih hone htwo hline' hshort' hover'
      exact ⟨_, _, hevents.recv [byte] (by simp) (by simp), hevents'.recv [byte] (by simp) (by simp), hne⟩
    by_cases hbyte : byte = newline
    · subst hbyte
      refine alone (hfirst.newline room hline) (hsecond.newline room' hline) List.not_mem_nil (Nat.zero_le _) ?_
      exact fun hframed ↦ hover ((framed_line_iff hline rest).mpr ⟨hshort, hframed⟩)
    have hlonger : newline ∉ line ++ [byte] := by simp [hline, Ne.symm hbyte]
    rcases Nat.lt_or_eq_of_le hshort with hroom | hfull
    · refine alone (hfirst.byte room hline hbyte hroom) (hsecond.byte room' hline hbyte hroom) hlonger ?_ ?_
      · rw [List.length_append]
        exact hroom
      · rwa [List.append_assoc]
    · cases rest with
      | nil =>
        rw [framed_unbroken_iff hlonger, List.length_append, hfull] at hover
        exact absurd le_rfl hover
      | cons next rest =>
        obtain ⟨events, hevents⟩ := exists_delivers rest
        refine ⟨_, _, (hevents.recv [next] (by simp) (by simp)).recv [byte] (by simp) (by simp),
          hevents.recv [byte, next] (by simp) (by simp), fun hsame ↦ ?_⟩
        obtain ⟨act, hact, htwo⟩ := (hsecond.overlong room' hline hbyte hfull next).2
        have hrefused := after_acts_prefix (first.step room (.recv [byte])) room (.recv [next] :: events)
        have hother := after_acts_prefix (second.step room' (.recv [byte, next])) room' events
        rw [(hfirst.overlong room hline hbyte hfull next).1] at hrefused
        rw [htwo] at hother
        have hlists := (List.prefix_of_prefix_length_le (hsame ▸ hrefused) hother (by simp)).eq_of_length (by simp)
        exact hact (by simpa using hlists.symm)

/-- Whatever the sockets take at once, any two ways of cutting a stream hand over the same lines and make the
same refusal, and no line over the limit is handled, exactly if the stream is framed. -/
theorem readClient_chunking_iff (room room' : ℕ → Bool) (stream : List UInt8) :
    (∀ events events', Delivers events stream → Delivers events' stream →
      (Caller.after room {} events).acts = (Caller.after room' {} events').acts ∧
        ∀ line, .handled line ∈ (Caller.after room {} events).acts → line.length ≤ frameMaxBytes) ↔
      Framed stream := by
  constructor
  · intro hsame
    by_contra hover
    have hfresh : Reads {} [] [] := ⟨rfl, rfl, rfl, rfl⟩
    obtain ⟨_, _, hevents, hevents', hne⟩ :=
      exists_acts_ne room room' stream hfresh hfresh List.not_mem_nil (Nat.zero_le _) hover
    exact hne (hsame _ _ hevents hevents').1
  · intro hframed _ _ hevents hevents'
    rw [after_acts room hframed hevents, after_acts room' hframed hevents']
    exact ⟨rfl, fun _ ↦ length_le_of_handled hframed⟩

/-- A line that outgrows the limit in its second chunk, with its newline in that chunk or after it. -/
theorem after_outgrown {start rest : List UInt8} (hstart : newline ∉ start) (hrest : newline ∉ rest)
    (hfits : start.length ≤ frameMaxBytes) (hlong : frameMaxBytes < (start ++ rest).length) :
    (Caller.after (fun _ ↦ true) {} [.recv start, .recv (rest ++ [newline])]).acts = [.handled (start ++ rest)] ∧
      (Caller.after (fun _ ↦ true) {} [.recv start, .recv rest, .recv [newline]]).acts =
        [.frameTooLarge (start ++ rest).length, .handled []] := by
  have hfst : readClient (fun _ ↦ true) {} start = { inbox := start } := by
    have htake := takeLines_append {} (fun _ ↦ true) [] [] hstart
    rw [List.append_nil] at htake
    simp [readClient, htake, takeLines, Nat.not_lt.mpr hfits]
  have hsnd (more : List UInt8) : readClient (fun _ ↦ true) { inbox := start } (rest ++ more) =
      takeLines { inbox := start } (fun _ ↦ true) (start ++ rest) more := by
    rw [readClient_eq _ rfl hstart, takeLines_append _ _ _ _ hrest]
  have halone := hsnd []
  rw [List.append_nil] at halone
  constructor
  · simp [Caller.after, step, hfst, hsnd, takeLines]
  · simp only [Caller.after, List.foldl, step, hfst, halone, takeLines, if_pos hlong]
    simp [readClient, takeLines, send, flush]

/-- A line of `frameMaxBytes + 1` bytes. If its last chunk ends with its newline the line is handled; if the
newline comes alone the line is refused, and the newline is handled as a request of its own. -/
theorem readClient_overlongLine :
    let start := List.replicate 65536 97
    let rest := List.replicate (frameMaxBytes + 1 - 65536) 97
    let whole := [SocketEvent.recv start, .recv (rest ++ [newline])]
    let apart := [SocketEvent.recv start, .recv rest, .recv [newline]]
    Delivers whole (start ++ rest ++ [newline]) ∧ Delivers apart (start ++ rest ++ [newline]) ∧
      (start ++ rest).length = frameMaxBytes + 1 ∧
      (Caller.after (fun _ ↦ true) {} whole).acts = [.handled (start ++ rest)] ∧
      (Caller.after (fun _ ↦ true) {} apart).acts = [.frameTooLarge (frameMaxBytes + 1), .handled []] := by
  intro start rest whole apart
  have hlimit : 65536 ≤ frameMaxBytes ∧ frameMaxBytes + 1 - 65536 < 65536 := by decide
  have hstart : start.length = 65536 := List.length_replicate
  have hrest : rest.length = frameMaxBytes + 1 - 65536 := List.length_replicate
  have hlen : (start ++ rest).length = frameMaxBytes + 1 := by
    rw [List.length_append]
    omega
  have hbyte (n : ℕ) : newline ∉ List.replicate n 97 := fun hmem ↦
    absurd (List.eq_of_mem_replicate hmem) (by decide)
  have hfits : start.length ≤ frameMaxBytes := by omega
  have hlong : frameMaxBytes < (start ++ rest).length := by omega
  have hruns := after_outgrown (hbyte _) (hbyte _) hfits hlong
  have hnone : Delivers [] [] := ⟨by simp [received], rfl⟩
  have hone : Delivers [.recv [newline]] [newline] := hnone.recv [newline] (by simp) (by simp)
  rw [List.append_assoc]
  refine ⟨Delivers.recv _ ?_ (by omega) (by omega), Delivers.recv _ ?_ (by omega) (by omega), hlen, hruns.1,
    hlen ▸ hruns.2⟩
  · have hboth : (rest ++ [newline]).length = rest.length + 1 := List.length_append
    simpa using hnone.recv (rest ++ [newline]) (by omega) (by omega)
  · exact hone.recv _ (by omega) (by omega)

end Ummanu.Head
