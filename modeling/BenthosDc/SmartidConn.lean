/-
BenthosDc/SmartidConn.lean

What the daemon sends over a connection, and the end of a connection
(`smartid_conn.c`).
-/
import BenthosDc.Base64
import BenthosDc.SmartidDevice

namespace BenthosDc

open CString Hoare Lifetime

variable {S α β : Type}

/-! ### Responses

A response is a code, a blank, a text and a line end.  It is put into the output buffer of the
connection.
-/

/-- The line for a code and a text. -/
def responseLine (code : Int) (msg : Text) : Text := decimalInt code ++ ' ' :: (msg ++ ['\n'])

/-- `evbuffer_add`: text is appended to the output. -/
def evbufferAdd (text : Text) : Daemon S Unit :=
  modify fun c => { c with out := c.out ++ text }

/-- The code is a `uint16_t`. -/
def smartidConnSendResponse (code : Int) (msg : Text) : Daemon S Unit :=
  evbufferAdd (responseLine (code % 2 ^ 16) msg)

/-- The message is printed into a buffer of 2048 bytes first. -/
def smartidConnSendResponsef (code : Int) (msg : Text) : Daemon S Unit :=
  smartidConnSendResponse code (msg.take 2046)

/-- The greeting. -/
def smartidConnSendReady : Daemon S Unit :=
  smartidConnSendResponsef smartiStatusReady "Smart-I Daemon 1.0.5 Ready".toList

/-- No data, no text. -/
def smartidConnSendBuffer (data : List UInt8) : Daemon S Unit :=
  if data = [] then return ()
  else
    match base64EncodeRun data with
    -- the message for the log is all that is left then
    | .error .null => return ()
    | .error .overflow => throw .overflow
    | .ok b64data => do
      smartidConnSendResponsef smartiDataFollows
        ("Data Follows: ".toList ++ decimal (b64data.length % 2 ^ 32))
      evbufferAdd (b64data ++ ['\n'])

/-! ### The device of a connection

A connection has one device at most.  Disposing of the connection disposes of its device.
-/

/-- The device, if one is open. -/
def smartidConnDevice : Daemon S (Option Nat) := fun c => .ok (c.dev, c)

/-- Whether there is an IrDA socket. -/
def smartidConnIrda : Daemon S Bool := fun c => .ok (c.irda, c)

/-- Another device, or none. -/
def smartidConnSetDevice (dev : Option Nat) : Daemon S Unit := modify fun c => { c with dev := dev }

/-- The connection itself is gone afterwards. -/
def smartidConnDispose : Daemon S Unit := do
  match ← smartidConnDevice with
  | none => return ()
  | some h => smartidDevDispose (some h)

/-! ### Shapes of replies

What a reply looks like is said once, and the client relies on it.
-/

/-- The codes of replies of one line have three digits. -/
def StatusCode (code : Int) : Prop := 100 ≤ code ∧ code < 1000 ∧ code ≠ smartiDataFollows

instance : DecidablePred StatusCode := fun _ => inferInstanceAs (Decidable (_ ∧ _ ∧ _))

/-- A reply of one status line. -/
def StatusReply (reply : Text) : Prop :=
  ∃ code msg, StatusCode code ∧ '\n' ∉ msg ∧ reply = responseLine code msg

/-- One status line, and for the code 301 one line of base64 text behind it. -/
inductive OneReply : Text → Prop
  | status {code : Int} {msg : Text} : StatusCode code → '\n' ∉ msg →
      OneReply (responseLine code msg)
  | data {data : List UInt8} : data ≠ [] → data.length ≤ maxEncodable →
      OneReply (responseLine smartiDataFollows
        ("Data Follows: ".toList ++ decimal (padTriples data).length) ++
          (padTriples data ++ ['\n']))

/-- A status is one line. -/
theorem StatusReply.one {reply : Text} (h : StatusReply reply) : OneReply reply := by
  obtain ⟨code, msg, hcode, hmsg, rfl⟩ := h
  exact .status hcode hmsg

/-! ### Programs that reply

A program that replies appends text of a given shape, and keeps the device structures in order.
-/

/-- A program that keeps the handles in order and `conn->dev` as it is, and puts a
text with the property `P` into the output. -/
def Sends (o : Option Nat) (E : Halt → Prop) (P : Text → Prop) (m : Daemon S α) : Prop :=
  ∀ c, Owns c o → Triple m c (fun _ c' => Owns c' o ∧ c'.dev = c.dev ∧
    ∃ reply, c'.out = c.out ++ reply ∧ P reply) E

/-- A program that keeps a connection with the device `o` well formed, and puts a
reply with the property `P` into the output. -/
def Replies (o : Option Nat) (E : Halt → Prop) (P : Text → Prop) (m : Daemon S α) : Prop :=
  ∀ c, Owns c o → c.dev = o → Triple m c (fun _ c' => WellFormed c' ∧
    ∃ reply, c'.out = c.out ++ reply ∧ P reply) E

section Replies

variable {o : Option Nat} {E : Halt → Prop} {P : Text → Prop} {m : Daemon S α}
  {f : α → Daemon S β}

/-- A program that sends keeps its device. -/
theorem Sends.replies (hm : Sends o E P m) : Replies o E P m := by
  intro c hc hdev
  apply (hm c hc).imp
  rintro a c' ⟨hc', hdev', hreply⟩
  refine ⟨?_, hreply⟩
  rw [WellFormed, hdev', hdev]
  exact hc'

/-- The shape may be weakened. -/
theorem Replies.mono {P' : Text → Prop} (hm : Replies o E P m) (hP : ∀ reply, P reply → P' reply) :
    Replies o E P' m := by
  intro c hc hdev
  apply (hm c hc hdev).imp
  rintro a c' ⟨hc', reply, hout, hreply⟩
  exact ⟨hc', reply, hout, hP reply hreply⟩

/-- The quiet beginning of a program does not show in its reply. -/
theorem Keeps.replies (hm : Keeps o E m) (hf : ∀ a, Replies o E P (f a)) :
    Replies o E P (m >>= f) := by
  intro c hc hdev
  apply (hm c hc).bind
  rintro a c₁ ⟨hc₁, hq⟩
  apply (hf a c₁ hc₁ (hq.dev.trans hdev)).imp
  rintro b c₂ ⟨hc₂, hreply⟩
  rw [hq.out] at hreply
  exact ⟨hc₂, hreply⟩

/-- What is added is sent. -/
theorem evbufferAdd_sends (text : Text) : Sends (S := S) o E (· = text) (evbufferAdd text) :=
  fun _ hc => Triple.modify ⟨⟨hc.sound, hc.live, hc.heap, hc.fresh⟩, rfl, text, rfl, rfl⟩

/-- **A response is one status line.** -/
theorem sendResponse_sends {code : Int} {msg : Text} (hcode : StatusCode code) (hmsg : '\n' ∉ msg) :
    Sends (S := S) o E StatusReply (smartidConnSendResponse code msg) := by
  have hmod : code % 2 ^ 16 = code := by
    obtain ⟨hlow, hhigh, -⟩ := hcode
    exact Int.emod_eq_of_lt (by omega) (by omega)
  intro c hc
  apply (evbufferAdd_sends (responseLine (code % 2 ^ 16) msg) c hc).imp
  rintro a c' ⟨hc', hdev, reply, hout, rfl⟩
  refine ⟨hc', hdev, _, hout, ?_⟩
  rw [hmod]
  exact ⟨code, msg, hcode, hmsg, rfl⟩

/-- A response with a status code is one line. -/
theorem sendResponsef_sends {code : Int} {msg : Text} (hcode : StatusCode code)
    (hmsg : '\n' ∉ msg) : Sends (S := S) o E StatusReply (smartidConnSendResponsef code msg) :=
  sendResponse_sends hcode fun hmem => hmsg (List.mem_of_mem_take hmem)

/-- The length of a number in decimals. -/
theorem length_decimal_le {n k : Nat} (h : n < 10 ^ k) (hk : 0 < k) : (decimal n).length ≤ k :=
  (Nat.length_toDigits_le_iff (by decide) hk).mpr h

/-- The lines for a block of data: nothing in them is cut off. -/
theorem sendBuffer_eq {data : List UInt8} (hne : data ≠ []) (hlen : data.length ≤ maxEncodable) :
    smartidConnSendBuffer (S := S) data = (do
      evbufferAdd (responseLine smartiDataFollows
        ("Data Follows: ".toList ++ decimal (padTriples data).length))
      evbufferAdd (padTriples data ++ ['\n'])) := by
  have hlong : (padTriples data).length < 2 ^ 31 := length_padTriples_lt hlen
  have hmod : (padTriples data).length % 2 ^ 32 = (padTriples data).length :=
    Nat.mod_eq_of_lt (by omega)
  have hmsg : ("Data Follows: ".toList ++ decimal (padTriples data).length).length ≤ 2046 := by
    have hdigits : (decimal (padTriples data).length).length ≤ 10 :=
      length_decimal_le (by omega) (by decide)
    rw [List.length_append]
    show 14 + _ ≤ _
    omega
  rw [smartidConnSendBuffer, if_neg hne, base64EncodeRun_eq hne hlen]
  show (smartidConnSendResponsef _ _ >>= fun _ => evbufferAdd _) = _
  rw [hmod, smartidConnSendResponsef, List.take_of_length_le hmsg]
  rfl

/-- Data are sent as a line of base64. -/
theorem sendBuffer_sends {data : List UInt8} (hne : data ≠ [])
    (hover : maxEncodable < data.length → E .overflow) :
    Sends (S := S) o E OneReply (smartidConnSendBuffer data) := by
  intro c hc
  by_cases hlen : data.length ≤ maxEncodable
  · rw [sendBuffer_eq hne hlen]
    apply (evbufferAdd_sends _ c hc).bind
    rintro _ c₁ ⟨hc₁, hdev₁, _, hout₁, rfl⟩
    apply (evbufferAdd_sends _ c₁ hc₁).imp
    rintro _ c₂ ⟨hc₂, hdev₂, _, hout₂, rfl⟩
    refine ⟨hc₂, hdev₂.trans hdev₁, _, ?_, OneReply.data hne hlen⟩
    rw [hout₂, hout₁, List.append_assoc]
  · rw [smartidConnSendBuffer, if_neg hne, base64EncodeRun_overflow (Nat.not_le.mp hlen)]
    exact Triple.throw (hover (Nat.not_le.mp hlen))

/-- The device is gone. -/
theorem smartidConnDispose_spec {c : Conn S} (hc : WellFormed c) :
    Triple smartidConnDispose c (fun _ c' => Owns c' none) E := by
  apply (Triple.of_run (Q := fun dev c' => dev = c.dev ∧ c' = c) rfl ⟨rfl, rfl⟩).bind
  rintro dev c' ⟨hdev, rfl⟩
  rw [WellFormed, ← hdev] at hc
  cases dev with
  | none => exact Triple.pure hc
  | some h => exact (smartidDevDispose_spec hc).imp fun _ _ h => h.1

end Replies

end BenthosDc
