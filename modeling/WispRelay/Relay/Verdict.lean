import WispRelay.Nostr.SampleLibrary
import WispRelay.Relay.HandlerCalls
import WispRelay.Relay.Server

/-!
# One verdict for every message

`router_dispatch` and the handlers behind it have many exits.  Each of them sends one reply, the
last thing sent, and the reply fits the 512 bytes of `send_relay_msg`: the texts of the relay
are plain and short, so there is room for 64 bytes that are all escaped.

* `Libnostr.ReplySizes`: what is known of the size of a serialised reply.
* `OneVerdict`: what a client gets for a message.
* `one_verdict`: this is what is sent, whatever the calls return.
-/

namespace WispRelay

/-- A byte that JSON writes as it is. -/
def plainByte
    (c : UInt8) : Bool :=
  32 ≤ c && c < 127 && c != 34 && c != 92

namespace Libnostr

/--
The size of a reply: a JSON array of a label and strings.  Each byte of a string is escaped to at
most six, plain text not at all, and the rest of the array takes at most 32 bytes.
-/
structure ReplySizes
    (lib : Libnostr)
    (size : NostrRelayMsg → Nat)
    (escaped : CString → Nat) : Prop where
  serialize : lib.SerializeLaw size
  ok_le : ∀ eventId accepted message,
    size (.ok eventId accepted message) ≤ escaped eventId + escaped (ascii message) + 32
  eose_le : ∀ subId, size (.eose subId) ≤ escaped subId + 32
  closed_le : ∀ subId message,
    size (.closed subId message) ≤ escaped subId + escaped (ascii message) + 32
  notice_le : ∀ message, size (.notice message) ≤ escaped (ascii message) + 32
  escaped_le : ∀ s, escaped s ≤ 6 * s.length
  escaped_plain : ∀ s, s.all plainByte = true → escaped s = s.length
  hex_plain : ∀ bytes, (lib.bytesToHex bytes).all plainByte = true
  hex_length : ∀ bytes, (lib.bytesToHex bytes).length = 2 * bytes.length

end Libnostr

namespace Relay

open Interference Storage Subscriptions

/-! ## Replies -/

/-- The replies to a message: their kind, and the key that says what they are about. -/
inductive RepliesTo
    (lib : Libnostr) : RouterMsg → NostrRelayMsg → Prop
  | ok
      (event : NostrEvent)
      (accepted : Bool)
      (message : String) :
      RepliesTo lib (.event event) (.ok (lib.bytesToHex event.id.toList) accepted message)
  | eose
      (subId : CString)
      (filters : List NostrFilter) :
      RepliesTo lib (.req subId filters) (.eose subId)
  | refused
      (subId : CString)
      (filters : List NostrFilter)
      (message : String) :
      RepliesTo lib (.req subId filters) (.closed subId message)
  | closed
      (subId : CString)
      (message : String) :
      RepliesTo lib (.close subId) (.closed subId message)
  | auth
      (message : String) :
      RepliesTo lib .auth (.notice message)
  | unknown
      (message : String) :
      RepliesTo lib .unknown (.notice message)
  | invalid
      (message : String) :
      RepliesTo lib .invalid (.notice message)

/--
What is sent before the reply: for an EVENT the event to subscriptions, for a REQ stored events to
its connection, and nothing else.
-/
def MayPrecede
    (connFd : Int32) : RouterMsg → Int32 × NostrRelayMsg → Prop
  | .event event, sent => ∃ fd subId, sent = (fd, .event subId event)
  | .req subId _, sent => ∃ event, sent = (connFd, .event subId event)
  | _, _ => False

/-- One reply of the right kind and key is sent, after everything else, and it fits. -/
def OneVerdict
    (lib : Libnostr)
    (connFd : Int32)
    (msg : RouterMsg)
    (sent : List (Int32 × NostrRelayMsg)) : Prop :=
  ∃ before reply,
    sent = before ++ [(connFd, reply)] ∧
    (∀ x ∈ before, MayPrecede connFd msg x) ∧
    RepliesTo lib msg reply ∧
    (lib.relayMsgSerialize reply routerSendBufSize).isSome = true

/-- The subscription identifier of a message. -/
def RouterMsg.subId? : RouterMsg → Option CString
  | .req subId _ => some subId
  | .close subId => some subId
  | _ => none

/-! ## Replies fit -/

/-- A text of the relay. -/
def PlainText
    (text : String) : Prop :=
  (ascii text).all plainByte = true ∧ (ascii text).length ≤ 32

instance (text : String) : Decidable (PlainText text) :=
  inferInstanceAs (Decidable (_ ∧ _))

theorem plainText_rejection
    (err : NostrRelayError) :
    PlainText (getEventRejectionMessage err) := by
  cases err <;> decide +kernel

section Fits

variable
  {lib : Libnostr}
  {size : NostrRelayMsg → Nat}
  {escaped : CString → Nat}
  (hsizes : lib.ReplySizes size escaped)
include hsizes

theorem escaped_text
    {text : String}
    (htext : PlainText text) :
    escaped (ascii text) ≤ 32 := by
  rw [hsizes.escaped_plain _ htext.1]
  exact htext.2

theorem escaped_subId
    {subId : CString}
    (hid : subId.length ≤ routerMaxSubId) :
    escaped subId ≤ 384 := by
  have hle := hsizes.escaped_le subId
  rw [routerMaxSubId] at hid
  omega

theorem ok_fits
    (id : Bytes32)
    (accepted : Bool)
    {text : String}
    (htext : PlainText text) :
    (lib.relayMsgSerialize (.ok (lib.bytesToHex id.toList) accepted text)
      routerSendBufSize).isSome = true := by
  have hsize := hsizes.ok_le (lib.bytesToHex id.toList) accepted text
  have hhex := hsizes.escaped_plain _ (hsizes.hex_plain id.toList)
  have hshort := escaped_text hsizes htext
  rw [hsizes.hex_length, Vector.length_toList] at hhex
  refine (hsizes.serialize _ _).mpr ?_
  rw [routerSendBufSize]
  omega

theorem eose_fits
    {subId : CString}
    (hid : subId.length ≤ routerMaxSubId) :
    (lib.relayMsgSerialize (.eose subId) routerSendBufSize).isSome = true := by
  have hsize := hsizes.eose_le subId
  have hle := escaped_subId hsizes hid
  refine (hsizes.serialize _ _).mpr ?_
  rw [routerSendBufSize]
  omega

theorem closed_fits
    {subId : CString}
    (hid : subId.length ≤ routerMaxSubId)
    {text : String}
    (htext : PlainText text) :
    (lib.relayMsgSerialize (.closed subId text) routerSendBufSize).isSome = true := by
  have hsize := hsizes.closed_le subId text
  have hle := escaped_subId hsizes hid
  have hshort := escaped_text hsizes htext
  refine (hsizes.serialize _ _).mpr ?_
  rw [routerSendBufSize]
  omega

theorem notice_fits
    {text : String}
    (htext : PlainText text) :
    (lib.relayMsgSerialize (.notice text) routerSendBufSize).isSome = true := by
  have hsize := hsizes.notice_le text
  have hshort := escaped_text hsizes htext
  refine (hsizes.serialize _ _).mpr ?_
  rw [routerSendBufSize]
  omega

end Fits

/-! ## What is sent -/

section Sent

variable
  {lib : Libnostr}
  {connFd : Int32}
  {σ : Type}
  {step : (c : RelayCall) → σ → c.Ret × σ}

/-- A reply that fits is sent. -/
theorem sends_reply
    {reply : NostrRelayMsg}
    (hfits : (lib.relayMsgSerialize reply routerSendBufSize).isSome = true)
    (s : σ) :
    sends ((do
      let _ ← sendRelayMsg lib connFd reply
      pure () : RelayProg Unit).trace step s) = [(connFd, reply)] := by
  have hsent := sends_sendSerialized lib connFd step routerSendBufSize reply s
  rw [if_pos hfits] at hsent
  rw [Prog.trace_bind, sends_append, sendRelayMsg, hsent]
  rfl

/-- A reply is the verdict when nothing else is sent before it than may be. -/
theorem oneVerdict_of_reply
    {msg : RouterMsg}
    {reply : NostrRelayMsg}
    (hreply : RepliesTo lib msg reply)
    (hfits : (lib.relayMsgSerialize reply routerSendBufSize).isSome = true)
    {before : List (Int32 × NostrRelayMsg)}
    (hbefore : ∀ x ∈ before, MayPrecede connFd msg x)
    (s : σ) :
    OneVerdict lib connFd msg (before ++ sends ((do
      let _ ← sendRelayMsg lib connFd reply
      pure () : RelayProg Unit).trace step s)) :=
  ⟨before, reply, by rw [sends_reply hfits], hbefore, hreply, hfits⟩

/-- Nothing is sent before a reply. -/
theorem oneVerdict_of_only_reply
    {msg : RouterMsg}
    {reply : NostrRelayMsg}
    (hreply : RepliesTo lib msg reply)
    (hfits : (lib.relayMsgSerialize reply routerSendBufSize).isSome = true)
    (s : σ) :
    OneVerdict lib connFd msg (sends ((do
      let _ ← sendRelayMsg lib connFd reply
      pure () : RelayProg Unit).trace step s)) :=
  oneVerdict_of_reply hreply hfits (List.forall_mem_nil _) s

theorem sends_rateAllowed
    (ctx : RelayCtx)
    (type : RateType)
    (s : σ) :
    sends ((rateAllowed ctx connFd type).trace step s) = [] :=
  sends_of_calls (calls_rateAllowed ctx connFd type fun _ _ _ => RelayCall.noConfusion) s

/-- The handler of an event sends nothing but the event. -/
theorem handleEvent_sends
    (ctx : RelayCtx)
    (event : NostrEvent)
    (s : σ) :
    ∀ x ∈ sends ((handleEvent lib ctx event).trace step s), MayPrecede connFd (.event event) x := by
  refine sends_mem_of_calls (calls_handleEvent event ?_ ?_ ?_ ?_ ?_) s
  · exact fun _ _ _ h => by cases h
  · exact fun _ _ _ h => by cases h
  · exact fun _ _ _ _ h => by cases h
  · exact fun _ _ _ h => by cases h
  · intro fd subId text fd' message text' h
    cases h
    exact ⟨fd, subId, rfl⟩

/-- The queries of a REQ send nothing but events. -/
theorem queryStored_sends
    (ctx : RelayCtx)
    (subId : CString)
    (filters : List NostrFilter)
    (s : σ) :
    ∀ x ∈ sends ((queryStored lib ctx connFd subId filters).trace step s),
      MayPrecede connFd (.req subId filters) x := by
  refine sends_mem_of_calls (calls_queryStored ?_ ?_ filters ?_) s
  · exact fun _ _ _ h => by cases h
  · intro event text fd message text' h
    cases h
    exact ⟨event, rfl⟩
  · exact fun _ _ _ _ _ h => by cases h

end Sent

/-! ## Every message -/

section Messages

variable
  {lib : Libnostr}
  {size : NostrRelayMsg → Nat}
  {escaped : CString → Nat}
  (hsizes : lib.ReplySizes size escaped)
  (ctx : RelayCtx)
  (connFd : Int32)
  {σ : Type}
  {step : (c : RelayCall) → σ → c.Ret × σ}
  (s : σ)
include hsizes

theorem dispatch_event_verdict
    (event : NostrEvent) :
    OneVerdict lib connFd (.event event)
      (sends ((routerDispatch lib ctx connFd (.event event)).trace step s)) := by
  unfold routerDispatch
  rw [Prog.trace_bind, sends_append, sends_rateAllowed, List.nil_append]
  split
  · exact oneVerdict_of_only_reply (.ok event _ _) (ok_fits hsizes _ _ (by decide +kernel)) _
  rw [Prog.trace_bind, sends_append]
  refine oneVerdict_of_reply (.ok event _ _) (ok_fits hsizes _ _ ?_) (handleEvent_sends ctx event _) _
  split
  · decide +kernel
  · exact plainText_rejection _

theorem handleReq_verdict
    {subId : CString}
    (hid : subId.length ≤ routerMaxSubId)
    (filters : List NostrFilter) :
    OneVerdict lib connFd (.req subId filters)
      (sends ((handleReq lib ctx connFd subId filters).trace step s)) := by
  unfold handleReq
  split
  · exact oneVerdict_of_only_reply (.eose subId filters) (eose_fits hsizes hid) _
  rw [Prog.trace_bind, sends_append]
  change OneVerdict lib connFd _ ([] ++ sends _)
  rw [List.nil_append]
  split
  · exact oneVerdict_of_only_reply (.refused subId filters _)
      (closed_fits hsizes hid (by decide +kernel)) _
  rw [Prog.trace_bind, sends_append]
  exact oneVerdict_of_reply (.eose subId filters) (eose_fits hsizes hid)
    (queryStored_sends ctx subId filters _) _

theorem dispatch_req_verdict
    {subId : CString}
    (hid : subId.length ≤ routerMaxSubId)
    (filters : List NostrFilter) :
    OneVerdict lib connFd (.req subId filters)
      (sends ((routerDispatch lib ctx connFd (.req subId filters)).trace step s)) := by
  unfold routerDispatch
  rw [Prog.trace_bind, sends_append, sends_rateAllowed, List.nil_append]
  have hrefused : ∀ (text : String) (s' : σ), PlainText text →
      OneVerdict lib connFd (.req subId filters) (sends ((do
        let _ ← sendRelayMsg lib connFd (.closed subId text)
        pure () : RelayProg Unit).trace step s')) := fun text s' htext =>
    oneVerdict_of_only_reply (.refused subId filters text) (closed_fits hsizes hid htext) s'
  split
  · exact hrefused _ _ (by decide +kernel)
  split
  · exact hrefused _ _ (by decide +kernel)
  split
  · exact hrefused _ _ (by decide +kernel)
  exact handleReq_verdict hsizes ctx connFd _ hid filters

theorem dispatch_close_verdict
    {subId : CString}
    (hid : subId.length ≤ routerMaxSubId) :
    OneVerdict lib connFd (.close subId)
      (sends ((routerDispatch lib ctx connFd (.close subId)).trace step s)) := by
  have hclose : sends ((handleClose ctx connFd subId).trace step s) = [] := by
    unfold handleClose
    split <;> rfl
  unfold routerDispatch
  rw [Prog.trace_bind, sends_append, hclose, List.nil_append]
  refine oneVerdict_of_only_reply (.closed subId _) (closed_fits hsizes hid ?_) _
  split <;> decide +kernel

end Messages

theorem hexOf_plain
    (bytes : List UInt8) :
    (Sample.hexOf bytes).all plainByte = true := by
  have hdigit : ∀ d < 16, plainByte (FixedWidth.hexDigit d) = true := by
    decide
  have hdigits : ∀ w n, (FixedWidth.hexFixed w n).all plainByte = true := by
    intro w
    induction w with
    | zero => exact fun _ => rfl
    | succ w ih =>
        intro n
        rw [FixedWidth.hexFixed, List.all_append, ih, Bool.true_and, List.all_cons, List.all_nil,
          hdigit _ (Nat.mod_lt _ (by decide))]
        rfl
  induction bytes with
  | nil => rfl
  | cons b rest ih =>
      rw [Sample.hexOf, List.flatMap_cons, List.all_append, hdigits, Bool.true_and]
      exact ih

/-- The sample library writes strings as they are. -/
theorem library_replySizes
    (known : List NostrEvent) :
    (Sample.library known).ReplySizes (fun message => (Sample.relayMsgJson message).length)
      List.length where
  serialize := (Sample.library_messageSizes known).serialize
  ok_le := by
    intro eventId accepted message
    cases accepted <;> simp [Sample.relayMsgJson, Sample.quoted, ascii] <;> omega
  eose_le := by
    intro subId
    simp [Sample.relayMsgJson, Sample.quoted, ascii]
  closed_le := by
    intro subId message
    simp [Sample.relayMsgJson, Sample.quoted, ascii]
    omega
  notice_le := by
    intro message
    simp [Sample.relayMsgJson, Sample.quoted, ascii]
  escaped_le := by
    intro s
    omega
  escaped_plain := fun _ _ => rfl
  hex_plain := hexOf_plain
  hex_length := Sample.hexOf_length

/--
**Every message gets exactly one verdict.**  For every context, all the calls may return and every
message with an identifier of at most 64 bytes: the last message sent is the one reply, it is of
the right kind and key, and it fits the buffer it is written to.
-/
theorem one_verdict
    (lib : Libnostr)
    {size : NostrRelayMsg → Nat}
    {escaped : CString → Nat}
    (hsizes : lib.ReplySizes size escaped)
    (ctx : RelayCtx)
    (connFd : Int32)
    (msg : RouterMsg)
    (hid : ∀ subId ∈ msg.subId?, subId.length ≤ routerMaxSubId)
    {σ : Type}
    (step : (c : RelayCall) → σ → c.Ret × σ)
    (s : σ) :
    OneVerdict lib connFd msg (sends ((routerDispatch lib ctx connFd msg).trace step s)) := by
  cases msg with
  | event event => exact dispatch_event_verdict hsizes ctx connFd s event
  | req subId filters => exact dispatch_req_verdict hsizes ctx connFd s (hid subId rfl) filters
  | close subId => exact dispatch_close_verdict hsizes ctx connFd s (hid subId rfl)
  | auth =>
      exact oneVerdict_of_only_reply (.auth _) (notice_fits hsizes (by decide +kernel)) s
  | unknown =>
      exact oneVerdict_of_only_reply (.unknown _) (notice_fits hsizes (by decide +kernel)) s
  | invalid =>
      exact oneVerdict_of_only_reply (.invalid _) (notice_fits hsizes (by decide +kernel)) s

/-- A CLOSE for a subscription that does not exist, on a relay that has just started. -/
theorem one_verdict_unknown_subscription :
    let lib := Sample.library []
    let env := DispatchEnv.undisturbed 1700000000
    let s := startRelay (erasedFlash 1000 1814400 thousandSlots)
    OneVerdict lib 7 (.close (ascii "feed"))
      (sends ((routerDispatch lib startedCtx 7 (.close (ascii "feed"))).trace (relayCall lib env)
        (arrived s 7 env))) := by
  intro lib env s
  refine one_verdict lib (library_replySizes []) startedCtx 7 (.close (ascii "feed")) ?_
    (relayCall lib env) (arrived s 7 env)
  intro subId hsubId
  obtain rfl := Option.some.inj hsubId
  decide +kernel

end Relay
end WispRelay
