import Wslg.OpenClose
import Wslg.Callback
/-!
# Replies on the server

A client answers with a header and its caps, 42 bytes. What a wake-up finds on
the channel may hold any number of replies and the beginning of one more: those
that are whole reach the callback one by one, and a rest is an error.
-/

open Lib Lib.TraceM

namespace Wslg.Server

variable {W : Type} {env : Outside W} {s : InputStream} {sys : Traced W ServerEvent}

/-! ## Replies -/

structure Reply where
  version : UInt16
  clientLanguageId : List BYTE
  size : clientLanguageId.length = RDPAPPLIST_LANG_SIZE

namespace Reply

/-- As `OnCaps` writes it. -/
def bytes (r : Reply) : List BYTE := le32 RDPAPPLIST_CMDID_CAPS ++ le32 42 ++ le16 r.version ++ r.clientLanguageId

def pdu (r : Reply) : RDPAPPLIST_CLIENT_CAPS_PDU := ⟨r.version, r.clientLanguageId⟩

@[simp] theorem bytes_length (r : Reply) : r.bytes.length = 42 := by
  simp [bytes, r.size, RDPAPPLIST_LANG_SIZE]

end Reply

/-- What the client writes to the channel is a reply of its own version. -/
theorem capsReply_eq {language lang : List BYTE} (h : clientLanguageBytes language = some lang) :
    ∃ hsize, capsReply lang = Reply.bytes ⟨RDPAPPLIST_CHANNEL_VERSION, lang, hsize⟩ := by
  refine ⟨?_, rfl⟩
  unfold clientLanguageBytes at h
  split at h
  · rename_i hlt
    obtain rfl := Option.some.inj h
    rw [List.length_append, List.length_replicate]
    omega
  · cases h

/-- The caps the callback was given. -/
def pdusIn (evs : List ServerEvent) : List RDPAPPLIST_CLIENT_CAPS_PDU :=
  evs.filterMap fun | .clientCaps _ pdu => some pdu | _ => none

@[simp] theorem pdusIn_append (evs evs' : List ServerEvent) : pdusIn (evs ++ evs') = pdusIn evs ++ pdusIn evs' :=
  List.filterMap_append

/-- There is a callback, and it returns success. -/
def CallbackSucceeds (env : Outside W) : Prop :=
  ∃ f, env.ApplicationListClientCaps = some f ∧ ∀ pdu w, (f pdu w).1 = CHANNEL_RC_OK

theorem CallbackSucceeds.welcome (h : CallbackSucceeds env) (pdu : RDPAPPLIST_CLIENT_CAPS_PDU) (w : W) :
    Welcome env pdu w := by
  obtain ⟨f, hf, hok⟩ := h
  intro g hg
  obtain rfl : f = g := Option.some.inj (hf.symm.trans hg)
  exact hok pdu w

theorem CallbackSucceeds.called (h : CallbackSucceeds env) (position : Nat) (pdu : RDPAPPLIST_CLIENT_CAPS_PDU) :
    called env position pdu = [.clientCaps position pdu] := by
  obtain ⟨f, hf, -⟩ := h
  rw [Server.called, hf]
  rfl

/-! ## Within the received length -/

/-- `Stream_Read`: `none` if not all of the `n` bytes were received. -/
def InputStream.read (s : InputStream) (n : Nat) : Option (List BYTE) := if n ≤ s.remaining then some (s.next n) else none

/-! The receiver with reads that are watched. -/

def watchedHeader (s : InputStream) : Option (Except UINT (RDPAPPLIST_HEADER × InputStream)) :=
  if s.remaining < 8 then some (.error ERROR_INVALID_DATA)
  else do
    let cmdId ← s.read 4
    let length ← (s.skip 4).read 4
    return .ok (⟨read32 cmdId, read32 length⟩, s.skip 8)

def watchedCaps (env : Outside W) (s : InputStream) : Option (ServerM W (UINT × InputStream)) :=
  if s.remaining < 2 then some (pure (ERROR_INVALID_DATA, s))
  else do
    let version ← s.read 2
    if (s.skip 2).remaining < RDPAPPLIST_LANG_SIZE then some (pure (ERROR_INVALID_DATA, s.skip 2))
    else do
      let language ← (s.skip 2).read RDPAPPLIST_LANG_SIZE
      let t := (s.skip 2).skip RDPAPPLIST_LANG_SIZE
      return callClientCaps env t ⟨read16 version, language⟩ >>= fun error => pure (error, t)

def watchedReceive (env : Outside W) (s : InputStream) : Option (ServerM W (UINT × InputStream)) := do
  match ← watchedHeader s with
  | .error error => return pure (error, s)
  | .ok (h, t) =>
    let body ← if h.cmdId = RDPAPPLIST_CMDID_CAPS then watchedCaps env t else some (pure (CHANNEL_RC_BAD_PROC, t))
    return body >>= fun r => pure (r.1, goToEnd env r.2 (s.position + h.length.toNat))

theorem read_eq {n : Nat} (h : n ≤ s.remaining) : s.read n = some (s.next n) := if_pos h

theorem watchedHeader_eq (s : InputStream) : watchedHeader s = some (rdpapplist_read_header s) := by
  unfold watchedHeader rdpapplist_read_header
  split
  · rfl
  · rename_i h
    have hlength : 4 ≤ (s.skip 4).remaining := by simp only [InputStream.remaining, skip_position, skip_buffer] at *; omega
    rw [read_eq (by omega), read_eq hlength]
    rfl

theorem watchedCaps_eq (env : Outside W) (s : InputStream) : watchedCaps env s = some (rdpapplist_recv_caps_pdu env s) := by
  unfold watchedCaps rdpapplist_recv_caps_pdu
  by_cases hversion : s.remaining < 2
  · rw [if_pos hversion, if_pos hversion]
  rw [if_neg hversion, if_neg hversion, read_eq (by omega)]
  by_cases hlang : (s.skip 2).remaining < RDPAPPLIST_LANG_SIZE
  · simp only [Option.bind_eq_bind, Option.bind_some, if_pos hlang]
  · simp only [Option.bind_eq_bind, Option.bind_some, if_neg hlang, read_eq (Nat.le_of_not_lt hlang)]
    rfl

/-- Whatever stands in the stream, the receiver reads nothing beyond what was received. -/
theorem watchedReceive_eq (env : Outside W) (s : InputStream) :
    watchedReceive env s = some (rdpapplist_server_receive_pdu env s) := by
  unfold watchedReceive rdpapplist_server_receive_pdu receiveBody
  rw [watchedHeader_eq]
  cases rdpapplist_read_header s with
  | error error => rfl
  | ok r =>
    obtain ⟨h, t⟩ := r
    simp only [Option.bind_eq_bind, Option.bind_some]
    split
    · rw [watchedCaps_eq]
      rfl
    · rfl

/-! ## One reply -/

/-- A reply is next, between what is read and what is not. -/
structure ReplyNext (r : Reply) (s : InputStream) : Prop where
  split : ∃ pre post, s.buffer = pre ++ r.bytes ++ post ∧ s.position = pre.length

theorem next_of_split (pre x post : List BYTE) {n : Nat} (h : s.buffer = pre ++ x ++ post) (hp : s.position = pre.length)
    (hn : x.length = n) : s.next n = x := by
  rw [InputStream.next, h, hp, List.append_assoc, List.drop_left, List.take_left' hn]

namespace ReplyNext

variable {r : Reply}

theorem headerNext_eq (h : ReplyNext r s) : headerNext s = ⟨RDPAPPLIST_CMDID_CAPS, 42⟩ := by
  obtain ⟨pre, post, hbuf, hpos⟩ := h
  have hcmd : s.next 4 = le32 RDPAPPLIST_CMDID_CAPS :=
    next_of_split pre _ (le32 42 ++ le16 r.version ++ r.clientLanguageId ++ post) (by simp [hbuf, Reply.bytes]) hpos
      (le32_length _)
  have hlen : (s.skip 4).next 4 = le32 42 :=
    next_of_split (pre ++ le32 RDPAPPLIST_CMDID_CAPS) _ (le16 r.version ++ r.clientLanguageId ++ post)
      (by simp [hbuf, Reply.bytes]) (by simp [hpos]) (le32_length _)
  rw [headerNext, hcmd, hlen, read32_le32, read32_le32]

theorem capsNext (h : ReplyNext r s) : CapsNext s := by
  refine ⟨?_, by rw [h.headerNext_eq]⟩
  obtain ⟨pre, post, hbuf, hpos⟩ := h
  simp only [hbuf, hpos, List.length_append, Reply.bytes_length]
  omega

theorem capsNext_eq (h : ReplyNext r s) : Server.capsNext s = r.pdu := by
  obtain ⟨pre, post, hbuf, hpos⟩ := h
  have hversion : (s.skip 8).next 2 = le16 r.version :=
    next_of_split (pre ++ le32 RDPAPPLIST_CMDID_CAPS ++ le32 42) _ (r.clientLanguageId ++ post)
      (by simp [hbuf, Reply.bytes]) (by simp [hpos]) (le16_length _)
  have hlang : (s.skip 10).next RDPAPPLIST_LANG_SIZE = r.clientLanguageId :=
    next_of_split (pre ++ le32 RDPAPPLIST_CMDID_CAPS ++ le32 42 ++ le16 r.version) _ post
      (by simp [hbuf, Reply.bytes]) (by simp [hpos]) r.size
  rw [Server.capsNext, hversion, hlang, read16_le16, Reply.pdu]

/-- It is delivered, and the position is where the header says. -/
theorem receive (hcall : CallbackSucceeds env) (h : ReplyNext r s) (sys : Traced W ServerEvent) :
    (rdpapplist_server_receive_pdu env s sys).1 = (CHANNEL_RC_OK, s.skip 42) ∧
      pdusIn (rdpapplist_server_receive_pdu env s sys).2.trace = pdusIn sys.trace ++ [r.pdu] := by
  have hend : goToEnd env (s.skip 42) (s.position + (headerNext s).length.toNat) = s.skip 42 := by
    rw [h.headerNext_eq]
    exact if_neg fun hne => hne rfl
  obtain ⟨htrace, hok⟩ := callClientCaps_spec env (s.skip 42) (Server.capsNext s) sys
  rw [receive_caps h.capsNext, hend, hok.2 (hcall.welcome _ _), htrace, hcall.called, h.capsNext_eq]
  exact ⟨rfl, pdusIn_append _ _⟩

end ReplyNext

/-! ## All of them -/

/-- By induction on the replies: each takes one turn of the loop. -/
theorem receiveAll_replies (hcall : CallbackSucceeds env) (rs : List Reply) (pre tail : List BYTE) (fuel : Nat)
    {s : InputStream} (hbuf : s.buffer = pre ++ rs.flatMap Reply.bytes ++ tail) (hpos : s.position = pre.length)
    (sys : Traced W ServerEvent) :
    ∃ sys', receiveAll env (fuel + rs.length) s sys = receiveAll env fuel (s.skip (rs.flatMap Reply.bytes).length) sys' ∧
      pdusIn sys'.trace = pdusIn sys.trace ++ rs.map Reply.pdu := by
  induction rs generalizing pre s sys with
  | nil => exact ⟨sys, rfl, by simp⟩
  | cons r rs ih =>
    have hnext : ReplyNext r s := ⟨pre, rs.flatMap Reply.bytes ++ tail, by simp [hbuf], hpos⟩
    have hlt : s.position < s.buffer.length := by
      have hlen := hnext.capsNext.1
      omega
    obtain ⟨hret, hpdus⟩ := hnext.receive hcall sys
    obtain ⟨sys', hrun, hrest⟩ := ih (pre ++ r.bytes) (s := s.skip 42) (by simp [hbuf]) (by simp [hpos])
      (rdpapplist_server_receive_pdu env s sys).2
    refine ⟨sys', ?_, by rw [hrest, hpdus]; simp⟩
    rw [List.length_cons, ← Nat.add_assoc, receiveAll_turn _ hlt (by rw [hret]), hret, hrun, skip_skip]
    simp

/-- The beginning of a reply, not all of it. -/
def CutReply (tail : List BYTE) : Prop := ∃ r : Reply, tail <+: r.bytes ∧ tail ≠ r.bytes

theorem CutReply.length_lt {tail : List BYTE} (h : CutReply tail) : tail.length < 42 := by
  obtain ⟨r, ⟨rest, hrest⟩, hne⟩ := h
  have hlen := congrArg List.length hrest
  rw [List.length_append, r.bytes_length] at hlen
  -- nothing is missing only if it is the whole reply
  rcases rest with _ | ⟨b, rest⟩
  · rw [List.append_nil] at hrest
    exact (hne hrest).elim
  · rw [List.length_cons] at hlen
    omega

/-- Fewer bytes than a PDU has are an error. -/
theorem receiveAll_cut (env : Outside W) (fuel : Nat) (h : s.position < s.buffer.length) (hcut : s.buffer.length < s.position + 42)
    (sys : Traced W ServerEvent) : ∃ error t, receiveAll env (fuel + 1) s sys = (some (error, t), sys) ∧
      error ≠ CHANNEL_RC_OK := by
  have hnone : ¬ CapsNext s := fun hc => by
    have hlen := hc.1
    omega
  have herror : (rdpapplist_server_receive_pdu env s sys).1.1 ≠ CHANNEL_RC_OK := (receive_other hnone).1
  have hsys : (rdpapplist_server_receive_pdu env s sys).2 = sys := (receive_other hnone).2
  rw [receiveAll_last fuel h herror, hsys]
  exact ⟨_, _, rfl, herror⟩

/-! ## What a wake-up finds -/

inductive Found where
  | notReady
  | noData
  | failed
  | empty
  | buffer (s : InputStream)

/-- The answer to whether the channel is ready, asked only once. -/
def readiness (env : Outside W) (priv : RdpAppListServerPrivate) (w : W) : WtsResult Bool × W :=
  if priv.isReady then (.ok true, w) else env.WTSVirtualChannelReady priv.rdpapplist_channel w

/-- What the reads of a channel that is ready come to. -/
def findsReady (env : Outside W) (channel : Option HANDLE) (capacity : Nat) (w : W) : Found :=
  match env.WTSVirtualChannelRead_length channel w with
  | (.noData, _) => .noData
  | (.failed, _) => .failed
  | (.ok n, w) =>
    if n < 1 then .empty
    else
      match env.Stream_EnsureRemainingCapacity capacity n w with
      | (none, _) => .failed
      | (some capacity, w) =>
        match env.WTSVirtualChannelRead channel capacity.1 w with
        | (none, _) => .failed
        | (some bytes, _) => .buffer ⟨bytes.1, capacity.1, 0, bytes.2⟩

/-- What the calls of WTS give. -/
def finds (env : Outside W) (priv : RdpAppListServerPrivate) (w : W) : Found :=
  match readiness env priv w with
  | (.noData, _) => .noData
  | (.failed, _) => .failed
  | (.ok isReady, w) => 
    if isReady then findsReady env priv.rdpapplist_channel priv.input_stream.capacity w else .notReady

theorem checkReady_spec (env : Outside W) (priv : RdpAppListServerPrivate) (sys : Traced W ServerEvent) :
    (checkReady env priv sys).2.world = (readiness env priv sys.world).2 ∧
      pdusIn (checkReady env priv sys).2.trace = pdusIn sys.trace ∧
      (checkReady env priv sys).1 = match (readiness env priv sys.world).1 with
        | .noData => (some ERROR_NO_DATA, priv)
        | .failed => (some ERROR_INTERNAL_ERROR, priv)
        | .ok isReady => (none, { priv with isReady := isReady }) := by
  unfold checkReady readiness
  by_cases hready : priv.isReady = true
  · rw [if_pos hready, if_pos hready]
    obtain ⟨isReady, stream, event, thread, stop, session, channel⟩ := priv
    obtain rfl : isReady = true := hready
    exact ⟨rfl, rfl, rfl⟩
  · rw [if_neg hready, if_neg hready]
    simp only [bind_run, call_run]
    rcases env.WTSVirtualChannelReady priv.rdpapplist_channel sys.world with ⟨isReady | _ | _, w⟩
    · exact ⟨rfl, by simp [pdusIn], rfl⟩
    · exact ⟨rfl, rfl, rfl⟩
    · exact ⟨rfl, rfl, rfl⟩

theorem readChannel_found (env : Outside W) (priv : RdpAppListServerPrivate) (sys : Traced W ServerEvent) :
    pdusIn (readChannel env priv sys).2.trace = pdusIn sys.trace ∧
      match findsReady env priv.rdpapplist_channel priv.input_stream.capacity sys.world with
      | .noData => (readChannel env priv sys).1 = .error ERROR_NO_DATA
      | .empty => (readChannel env priv sys).1 = .ok none
      | .buffer s => (readChannel env priv sys).1 = .ok (some s)
      | _ => True := by
  unfold readChannel findsReady
  simp only [bind_run, call_run, emit_run]
  rcases env.WTSVirtualChannelRead_length priv.rdpapplist_channel sys.world with ⟨n | _ | _, w⟩
  · dsimp only
    by_cases hn : n < 1
    · rw [if_pos hn, if_pos hn]
      exact ⟨by simp [pdusIn], rfl⟩
    rw [if_neg hn, if_neg hn, bind_run, call_run]
    dsimp only
    rcases env.Stream_EnsureRemainingCapacity priv.input_stream.capacity n w with ⟨_ | capacity, w₁⟩
    · exact ⟨by simp [pdusIn], trivial⟩
    · simp only [bind_run, emit_run, call_run]
      rcases env.WTSVirtualChannelRead priv.rdpapplist_channel capacity.1 w₁ with ⟨_ | bytes, w₂⟩
      · exact ⟨by simp [pdusIn], trivial⟩
      · exact ⟨by simp [pdusIn], rfl⟩
  · exact ⟨by simp [pdusIn], rfl⟩
  · exact ⟨by simp [pdusIn], trivial⟩

theorem findsReady_ne_notReady (env : Outside W) (channel : Option HANDLE) (capacity : Nat) (w : W) :
    findsReady env channel capacity w ≠ .notReady := by
  unfold findsReady
  rcases env.WTSVirtualChannelRead_length channel w with ⟨n | _ | _, w⟩
  · dsimp only
    split
    · simp
    rcases env.Stream_EnsureRemainingCapacity capacity n w with ⟨_ | capacity, w⟩
    · simp
    dsimp only
    rcases env.WTSVirtualChannelRead channel capacity.1 w with ⟨_ | _, _⟩ <;> simp
  · simp
  · simp

/-- A stream that was read is at its start. -/
theorem finds_position {priv : RdpAppListServerPrivate} {w : W} (h : finds env priv w = .buffer s) : s.position = 0 := by
  revert h
  unfold finds findsReady
  rcases readiness env priv w with ⟨_ | _ | _, w⟩
  · dsimp only
    split
    · rcases env.WTSVirtualChannelRead_length priv.rdpapplist_channel w with ⟨n | _ | _, w⟩
      · dsimp only
        split
        · simp
        rcases env.Stream_EnsureRemainingCapacity priv.input_stream.capacity n w with ⟨_ | capacity, w⟩
        · simp
        dsimp only
        rcases env.WTSVirtualChannelRead priv.rdpapplist_channel capacity.1 w with ⟨_ | _, _⟩
        · simp
        · rintro ⟨⟩
          rfl
      · simp
      · simp
    · simp
  · simp
  · simp

/-- What a wake-up returns, by what it finds; of a failure it is only said that nothing is delivered. -/
theorem handle_messages_found (env : Outside W) (fuel : Nat) (priv : RdpAppListServerPrivate) (sys : Traced W ServerEvent) :
    let r := rdpapplist_server_handle_messages env fuel priv sys
    match finds env priv sys.world with
    | .notReady | .empty => r.1.1 = some CHANNEL_RC_OK ∧ pdusIn r.2.trace = pdusIn sys.trace
    | .noData => r.1.1 = some ERROR_NO_DATA ∧ pdusIn r.2.trace = pdusIn sys.trace
    | .failed => True
    | .buffer s => ∃ priv' sys', r = handleStream env fuel priv' s sys' ∧ pdusIn sys'.trace = pdusIn sys.trace := by
  obtain ⟨hworld, hpdus, hret⟩ := checkReady_spec env priv sys
  dsimp only
  unfold rdpapplist_server_handle_messages finds
  rw [bind_run]
  rcases hcheck : checkReady env priv sys with ⟨r, sys₁⟩
  rw [hcheck] at hworld hpdus hret
  dsimp only at hworld hpdus hret
  rcases hready : readiness env priv sys.world with ⟨_ | _ | _, w⟩ <;> rw [hready] at hworld hret <;> dsimp only at hworld hret <;>
    subst hworld hret <;> dsimp only
  case noData => exact ⟨rfl, hpdus⟩
  case ok isReady =>
    cases isReady with
    | false => exact ⟨rfl, hpdus⟩
    | true =>
      obtain ⟨hread, hfound⟩ := readChannel_found env { priv with isReady := true } sys₁
      simp only [if_true, bind_run]
      rcases hr : readChannel env { priv with isReady := true } sys₁ with ⟨r, sys₂⟩
      rw [hr] at hread hfound
      dsimp only at hfound
      replace hread := hread.trans hpdus
      rcases hf : findsReady env priv.rdpapplist_channel priv.input_stream.capacity sys₁.world with
        _ | _ | _ | _ | s <;> rw [hf] at hfound <;> dsimp only at hfound ⊢
      case noData => subst hfound; exact ⟨rfl, hread⟩
      case empty => subst hfound; exact ⟨rfl, hread⟩
      case buffer => subst hfound; exact ⟨_, _, rfl, hread⟩
      case notReady => exact absurd hf (findsReady_ne_notReady env _ _ _)

/-! ## The whole buffer -/

/-- What becomes of replies with the bytes `tail` behind them. -/
structure Decoded (rs : List Reply) (tail : List BYTE) (before : Traced W ServerEvent)
    (r : (Option UINT × RdpAppListServerPrivate) × Traced W ServerEvent) : Prop where
  /-- Once each and in order. -/
  delivered : pdusIn r.2.trace = pdusIn before.trace ++ rs.map Reply.pdu
  whole : tail = [] → r.1.1 = some CHANNEL_RC_OK ∧ r.1.2.input_stream.position = (rs.flatMap Reply.bytes).length
  cut : tail ≠ [] → ∃ error, r.1.1 = some error ∧ error ≠ CHANNEL_RC_OK

theorem handleStream_replies (hcall : CallbackSucceeds env) (rs : List Reply) (tail : List BYTE)
    (hbuf : s.buffer = rs.flatMap Reply.bytes ++ tail) (hpos : s.position = 0) (hcut : tail.length < 42) {fuel : Nat}
    (hfuel : rs.length < fuel) (priv : RdpAppListServerPrivate) (sys : Traced W ServerEvent) :
    Decoded rs tail sys (handleStream env fuel priv s sys) := by
  obtain ⟨rest, rfl⟩ := Nat.exists_eq_add_of_lt hfuel
  obtain ⟨sys', hrun, hpdus⟩ := receiveAll_replies hcall rs [] tail (rest + 1) hbuf hpos sys
  rw [show rest + 1 + rs.length = rs.length + rest + 1 by omega] at hrun
  have hlen : s.buffer.length = (rs.flatMap Reply.bytes).length + tail.length := by rw [hbuf, List.length_append]
  unfold handleStream
  rw [bind_run, hrun]
  by_cases htail : tail = []
  · subst htail
    have hend : ¬ (s.skip (rs.flatMap Reply.bytes).length).position <
        (s.skip (rs.flatMap Reply.bytes).length).buffer.length := by
      simp only [skip_position, skip_buffer, hpos, hlen, List.length_nil]
      omega
    rw [receiveAll_stop _ hend]
    exact ⟨hpdus, fun _ => ⟨rfl, by simp [hpos]⟩, fun h => (h rfl).elim⟩
  · have hpositive := List.length_pos_iff.2 htail
    obtain ⟨error, t, hlast, herror⟩ := receiveAll_cut env (s := s.skip (rs.flatMap Reply.bytes).length) rest
      (by simp only [skip_position, skip_buffer, hpos, hlen]; omega)
      (by simp only [skip_position, skip_buffer, hpos, hlen]; omega) sys'
    rw [hlast]
    exact ⟨hpdus, fun h => (htail h).elim, fun _ => ⟨error, rfl, herror⟩⟩

/-- Whatever replies are found, with or without the beginning of another, they are
decoded, and nothing is read beyond what was received. -/
theorem replies_decoded (env : Outside W) (hcall : CallbackSucceeds env) (rs : List Reply) {tail : List BYTE}
    (hcut : CutReply tail) {priv : RdpAppListServerPrivate} {sys : Traced W ServerEvent} {s : InputStream}
    (hfound : finds env priv sys.world = .buffer s) (hbuf : s.buffer = rs.flatMap Reply.bytes ++ tail) {fuel : Nat}
    (hfuel : rs.length < fuel) :
    Decoded rs tail sys (rdpapplist_server_handle_messages env fuel priv sys) ∧
      ∀ t, watchedReceive env t = some (rdpapplist_server_receive_pdu env t) := by
  refine ⟨?_, watchedReceive_eq env⟩
  have hhandled := handle_messages_found env fuel priv sys
  rw [hfound] at hhandled
  obtain ⟨priv', sys', hrun, hpdus⟩ := hhandled
  have hdecoded := handleStream_replies hcall rs tail hbuf (finds_position hfound) hcut.length_lt hfuel priv' sys'
  rw [hrun]
  exact ⟨hpdus ▸ hdecoded.delivered, hdecoded.whole, hdecoded.cut⟩

/-! ### On a channel that works -/

theorem callbackSucceeds_working : CallbackSucceeds workingOutside := ⟨_, rfl, fun _ _ => rfl⟩

def sampleReply : Reply := ⟨4, List.replicate 32 0, rfl⟩

/-- Three bytes of a second reply. -/
def cutSample : List BYTE := sampleReply.bytes.take 3

theorem replies_decoded_on_channel :
    let sys : Traced (List (List BYTE)) ServerEvent := ⟨[sampleReply.bytes ++ cutSample], []⟩
    Decoded [sampleReply] cutSample sys
        (rdpapplist_server_handle_messages workingOutside 2 newState.priv sys) ∧
      ∀ t, watchedReceive workingOutside t = some (rdpapplist_server_receive_pdu workingOutside t) :=
  replies_decoded workingOutside callbackSucceeds_working [sampleReply] ⟨sampleReply, List.take_prefix _ _, by decide⟩
    (s := ⟨sampleReply.bytes ++ cutSample, 45, 0, by decide⟩) rfl rfl (by decide)

end Wslg.Server
