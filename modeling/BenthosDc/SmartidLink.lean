/-
BenthosDc/SmartidLink.lean

The device of a connection and its IrDA link (`linkFollows_iff`).

`smartid_dev_dispose` frees the structure and leaves the socket in it as it is.  Nothing
in a connection disconnects the socket, so a connection that has let its device go keeps
the link, and the next OPEN fails.
-/
import BenthosDc.SmartidSession

namespace BenthosDc

open CString Hoare Loop SmartiCmd

variable {S α β : Type} {W : Irda S} {connected : S → Prop}

/-! ### The link

The world is asked whether its socket is connected.  What the calls of the library do to the
connection is given by `IrdaLink`, and nothing else of the library is used.
-/

/-- What is assumed of the socket: a connect that succeeds connects a socket that was not
connected, and nothing else the daemon does to the socket matters. -/
structure IrdaLink (W : Irda S) (connected : S → Prop) : Prop where
  connects : ∀ w addr lsap w', W.connectLsap w addr lsap = (.done (), w') →
    ¬connected w ∧ connected w'
  refuses : ∀ w addr lsap r w', W.connectLsap w addr lsap = (r, w') → r ≠ .done () →
    (connected w' ↔ connected w)
  discover : ∀ w, connected (W.discover w).2 ↔ connected w
  write : ∀ w bytes, connected (W.write w bytes).2 ↔ connected w
  read : ∀ w n, connected (W.read w n).2 ↔ connected w
  time : ∀ w, connected (W.time w).2 ↔ connected w

/-- `conn->dev` is null if and only if the socket is not connected. -/
def Agrees (connected : S → Prop) (c : Conn S) : Prop := c.dev = none ↔ ¬connected c.world

/-- Neither the link nor `conn->dev` changes. -/
structure SameLink (connected : S → Prop) (c c' : Conn S) : Prop where
  link : connected c'.world ↔ connected c.world
  dev : c'.dev = c.dev

theorem SameLink.refl (c : Conn S) : SameLink connected c c := ⟨Iff.rfl, rfl⟩

theorem SameLink.trans {c c' c'' : Conn S} (h : SameLink connected c c')
    (h' : SameLink connected c' c'') : SameLink connected c c'' :=
  ⟨h'.link.trans h.link, h'.dev.trans h.dev⟩

/-! ### Programs that leave the link alone

Most steps change neither the socket nor the pointer to the device.
-/

/-- The device and the link stay as they are. -/
def KeepsLink (connected : S → Prop) (m : Daemon S α) : Prop :=
  ∀ c a c', m.run c = .ok (a, c') → SameLink connected c c'

section KeepsLink

variable {m : Daemon S α} {f : α → Daemon S β}

theorem KeepsLink.pure (a : α) : KeepsLink connected (pure a : Daemon S α) := by
  rintro c _ _ ⟨⟩
  exact SameLink.refl c

theorem KeepsLink.throw (e : Halt) : KeepsLink connected (throw e : Daemon S α) := by
  rintro c _ _ ⟨⟩

theorem KeepsLink.bind (hm : KeepsLink connected m) (hf : ∀ a, KeepsLink connected (f a)) :
    KeepsLink connected (m >>= f) := by
  intro c b c' hrun
  obtain ⟨a, c₁, hrun₁, hrun₂⟩ := run_bind_eq_ok.mp hrun
  exact (hm c a c₁ hrun₁).trans (hf a c₁ b c' hrun₂)

/-- A step for each element of a list. -/
theorem KeepsLink.forM {ι : Type} {body : ι → Daemon S Unit}
    (hbody : ∀ i, KeepsLink connected (body i)) (is : List ι) :
    KeepsLink connected (is.forM body) := by
  induction is with
  | nil => exact KeepsLink.pure ()
  | cons i is ih => exact (hbody i).bind fun _ => ih

/-- A call that keeps the connection of the socket. -/
theorem irdaCall_keepsLink {f : S → α × S} (hf : ∀ w, connected (f w).2 ↔ connected w) :
    KeepsLink connected (irdaCall f) := by
  rintro c _ _ ⟨⟩
  exact ⟨hf c.world, rfl⟩

theorem evbufferAdd_keepsLink (text : Text) :
    KeepsLink (S := S) connected (evbufferAdd text) := by
  rintro c _ _ ⟨⟩
  exact ⟨Iff.rfl, rfl⟩

theorem setHeap_keepsLink (h : Nat) (d : Option SmartDevice) :
    KeepsLink (S := S) connected (setHeap h d) := by
  rintro c _ _ ⟨⟩
  exact ⟨Iff.rfl, rfl⟩

theorem record_keepsLink (e : Lifetime.Event Nat) :
    KeepsLink (S := S) connected (record e) := by
  rintro c _ _ ⟨⟩
  exact ⟨Iff.rfl, rfl⟩

/-- A structure is read if it is there. -/
theorem deref_run_iff {h : Nat} {d : SmartDevice} {c c' : Conn S} :
    (deref h).run c = .ok (d, c') ↔ c.heap h = some d ∧ c' = c := by
  show deref h c = _ ↔ _
  rw [deref]
  cases c.heap h with
  | none =>
    constructor
    · rintro ⟨⟩
    · rintro ⟨⟨⟩, -⟩
  | some d' =>
    constructor
    · rintro ⟨⟩
      exact ⟨rfl, rfl⟩
    · rintro ⟨⟨⟩, rfl⟩
      rfl

theorem deref_keepsLink (h : Nat) : KeepsLink (S := S) connected (deref h) := by
  intro c d c' hrun
  rw [(deref_run_iff.mp hrun).2]
  exact SameLink.refl c

/-- **Disposing of a device keeps its socket.** -/
theorem smartidDevDispose_keepsLink (dev : Option Nat) :
    KeepsLink (S := S) connected (smartidDevDispose dev) := by
  cases dev with
  | none => exact KeepsLink.pure ()
  | some h =>
    exact (deref_keepsLink h).bind fun _ => (setHeap_keepsLink h none).bind fun _ =>
      record_keepsLink _

theorem smartidConnDevice_keepsLink : KeepsLink (S := S) connected smartidConnDevice := by
  rintro c _ _ ⟨⟩
  exact SameLink.refl c

theorem smartidConnIrda_keepsLink : KeepsLink (S := S) connected smartidConnIrda := by
  rintro c _ _ ⟨⟩
  exact SameLink.refl c

/-- An operation is run on the structure. -/
theorem withDevice_run_ok {op : Nat → SmartDevice → Daemon S (Except Int α)} {h : Nat}
    {c c' : Conn S} {r : Except Int α} (hrun : (withDevice (some h) op).run c = .ok (r, c')) :
    ∃ d c₁, c.heap h = some d ∧ c₁ = { c with events := c.events ++ [.use h] } ∧
      (op h d).run c₁ = .ok (r, c') := by
  obtain ⟨d, c₁, hderef, hrest⟩ := run_bind_eq_ok.mp hrun
  obtain ⟨hd, rfl⟩ := deref_run_iff.mp hderef
  obtain ⟨_, c₂, ⟨⟩, hop⟩ := run_bind_eq_ok.mp hrest
  exact ⟨d, _, hd, rfl, hop⟩

theorem withDevice_keepsLink {op : Nat → SmartDevice → Daemon S (Except Int α)} {h : Nat}
    (hop : ∀ d, KeepsLink connected (op h d)) :
    KeepsLink connected (withDevice (some h) op) :=
  (deref_keepsLink h).bind fun d => (record_keepsLink _).bind fun _ => hop d

end KeepsLink

/-! ### Exchanges with the device

A command and its answer are one exchange, which gives the bytes of the answer or nothing.
-/

/-- A command and its answer, as far as it is received; `none` if the write or the read
fails or times out. -/
def exchange (W : Irda S) (w : S) (cmd ans : List UInt8) : Option (List UInt8 × S) :=
  match W.write w cmd with
  | (.done _, w₁) =>
    match W.read w₁ ans.length with
    | (.done bytes, w₂) => some (received bytes ans, w₂)
    | _ => none
  | _ => none

/-- What the memory for an answer of `n` bytes holds before. -/
def junkAnswer (W : Irda S) (w : S) (n : Nat) : List UInt8 := (List.range n).map (W.junk w)

/-- The two steps of a handshake both end with the answer 1. -/
def ShakesHands (W : Irda S) (w w' : S) : Prop :=
  ∃ a₁ w₁ a₂, exchange W w [0x1b] (junkAnswer W w 1) = some (a₁, w₁) ∧ octet a₁ 0 = 1 ∧
    exchange W w₁ [0x1c, 0x10, 0x27, 0, 0] a₁ = some (a₂, w') ∧ octet a₂ 0 = 1

/-- The device shakes hands and tells its ticks. -/
def Greets (W : Irda S) (w : S) : Prop :=
  ∃ w', ShakesHands W w w' ∧ exchange W w' [0x1a] (uint32Bytes 0) ≠ none

/-- The handshake has one outcome. -/
theorem ShakesHands.unique {w w' w'' : S} (h : ShakesHands W w w') (h' : ShakesHands W w w'') :
    w' = w'' := by
  obtain ⟨a₁, w₁, a₂, hex₁, -, hex₂, -⟩ := h
  obtain ⟨b₁, v₁, b₂, hex₁', -, hex₂', -⟩ := h'
  rw [hex₁] at hex₁'
  obtain ⟨⟩ := hex₁'
  rw [hex₂] at hex₂'
  obtain ⟨⟩ := hex₂'
  rfl

section Exchange

variable {c c' : Conn S} {cmd ans : List UInt8}

/-- **A command is an exchange.** -/
theorem smartDriverCmd_run_ok {r : Except Int (List UInt8)}
    (hrun : (smartDriverCmd W cmd ans).run c = .ok (r, c')) :
    (∃ a, r = .ok a ∧ exchange W c.world cmd ans = some (a, c'.world)) ∨
      exchange W c.world cmd ans = none ∧ ∃ rv, r = .error rv ∧
        (rv = smartiErrorIo ∨ rv = smartiErrorTimeout) := by
  unfold exchange
  rcases hw : W.write c.world cmd with ⟨_ | _ | n, w₁⟩ <;>
    have hrest := (run_bind_of_ok (irdaCall_run hw)).symm.trans hrun
  · obtain ⟨⟩ := hrest
    exact .inr ⟨rfl, _, rfl, .inl rfl⟩
  · obtain ⟨⟩ := hrest
    exact .inr ⟨rfl, _, rfl, .inr rfl⟩
  · dsimp only
    rcases hr : W.read w₁ ans.length with ⟨_ | _ | bytes, w₂⟩ <;>
      have hlast := (run_bind_of_ok (irdaCall_run (c := { c with world := w₁ }) hr)).symm.trans hrest
    · obtain ⟨⟩ := hlast
      exact .inr ⟨rfl, _, rfl, .inl rfl⟩
    · obtain ⟨⟩ := hlast
      exact .inr ⟨rfl, _, rfl, .inr rfl⟩
    · obtain ⟨⟩ := hlast
      exact .inl ⟨_, rfl, rfl⟩

variable (hlink : IrdaLink W connected)

include hlink

/-- An exchange keeps the link. -/
theorem smartDriverCmd_keepsLink (cmd ans : List UInt8) :
    KeepsLink connected (smartDriverCmd W cmd ans) := by
  apply (irdaCall_keepsLink fun w => hlink.write w cmd).bind
  rintro (_ | _ | _)
  · exact KeepsLink.pure _
  · exact KeepsLink.pure _
  · apply (irdaCall_keepsLink fun w => hlink.read w ans.length).bind
    rintro (_ | _ | _)
    · exact KeepsLink.pure _
    · exact KeepsLink.pure _
    · exact KeepsLink.pure _

theorem smartReadUchar_keepsLink (cmd ans : List UInt8) :
    KeepsLink connected (smartReadUchar W cmd ans) := by
  apply (smartDriverCmd_keepsLink hlink cmd ans).bind
  rintro (_ | _)
  · exact KeepsLink.pure _
  · exact KeepsLink.pure _

theorem smartReadUlong_keepsLink (cmd ans : List UInt8) :
    KeepsLink connected (smartReadUlong W cmd ans) := by
  apply (smartDriverCmd_keepsLink hlink cmd ans).bind
  rintro (_ | _)
  · exact KeepsLink.pure _
  · exact KeepsLink.pure _

omit hlink in
theorem junkBytes_keepsLink (n : Nat) : KeepsLink connected (junkBytes W n) :=
  irdaCall_keepsLink fun _ => Iff.rfl

/-- So does a handshake. -/
theorem smartDriverHandshake_keepsLink : KeepsLink connected (smartDriverHandshake W) := by
  refine (junkBytes_keepsLink 1).bind fun ans => (smartDriverCmd_keepsLink hlink _ ans).bind ?_
  rintro (_ | ans)
  · exact KeepsLink.pure _
  show KeepsLink connected (if _ then _ else _)
  split
  · exact KeepsLink.pure _
  apply (smartDriverCmd_keepsLink hlink _ ans).bind
  rintro (_ | ans)
  · exact KeepsLink.pure _
  show KeepsLink connected (if _ then _ else _)
  split
  · exact KeepsLink.pure _
  · exact KeepsLink.pure _

end Exchange

/-! ### Numbers

A command that reads a number fails if and only if its exchange does.
-/

section Numbers

variable {c c' : Conn S} {cmd ans : List UInt8} {r : Except Int Nat}

/-- A number of one byte. -/
theorem smartReadUchar_run_ok (hrun : (smartReadUchar W cmd ans).run c = .ok (r, c')) :
    (∃ rv, r = .error rv) ↔ exchange W c.world cmd ans = none := by
  obtain ⟨a, c₁, hcmd, hrest⟩ := run_bind_eq_ok.mp hrun
  rcases smartDriverCmd_run_ok hcmd with ⟨a, rfl, hex⟩ | ⟨hex, rv, rfl, -⟩
  · obtain ⟨⟩ := hrest
    rw [hex]
    exact iff_of_false (fun h => nomatch h) fun h => nomatch h
  · obtain ⟨⟩ := hrest
    exact iff_of_true ⟨rv, rfl⟩ hex

/-- The error codes of an exchange are not those of a block without data. -/
theorem smartReadUlong_run_ok (hrun : (smartReadUlong W cmd ans).run c = .ok (r, c')) :
    (∃ a, r = .ok (uint32Le a 0) ∧ exchange W c.world cmd ans = some (a, c'.world)) ∨
      exchange W c.world cmd ans = none ∧ ∃ rv, r = .error rv ∧ rv ≠ smartiStatusNoData ∧
        rv ≠ smartiErrorDevice := by
  obtain ⟨a, c₁, hcmd, hrest⟩ := run_bind_eq_ok.mp hrun
  rcases smartDriverCmd_run_ok hcmd with ⟨a, rfl, hex⟩ | ⟨hex, rv, rfl, hrv⟩
  · obtain ⟨⟩ := hrest
    exact .inl ⟨a, rfl, hex⟩
  · obtain ⟨⟩ := hrest
    refine .inr ⟨hex, rv, rfl, ?_⟩
    rcases hrv with rfl | rfl
    · exact ⟨by decide, by decide⟩
    · exact ⟨by decide, by decide⟩

/-- A number of four bytes. -/
theorem smartReadUlong_error_iff (hrun : (smartReadUlong W cmd ans).run c = .ok (r, c')) :
    (∃ rv, r = .error rv) ↔ exchange W c.world cmd ans = none := by
  rcases smartReadUlong_run_ok hrun with ⟨a, rfl, hex⟩ | ⟨hex, rv, rfl, -⟩
  · rw [hex]
    exact iff_of_false (fun h => nomatch h) fun h => nomatch h
  · exact iff_of_true ⟨rv, rfl⟩ hex

/-- An operation that asks an open device for a number leaves the link alone, and fails if
and only if the device is `silent`. -/
def Asks (connected : S → Prop) (ask : Option Nat → Daemon S (Except Int Nat))
    (silent : S → SmartDevice → Prop) : Prop :=
  ∀ h c r c', (ask (some h)).run c = .ok (r, c') → SameLink connected c c' ∧
    ∃ d, c.heap h = some d ∧ ((∃ rv, r = .error rv) ↔ silent c.world d)

variable (hlink : IrdaLink W connected)

include hlink

/-- MODEL asks the device. -/
theorem smartidDevModel_asks : Asks connected (smartidDevModel W)
    fun w _ => exchange W w [0x10] (junkAnswer W w 1) = none := by
  intro h c r c' hrun
  have hkeep : KeepsLink connected (smartidDevModel W (some h)) :=
    withDevice_keepsLink fun _ => (junkBytes_keepsLink 1).bind (smartReadUchar_keepsLink hlink _)
  refine ⟨hkeep c r c' hrun, ?_⟩
  obtain ⟨d, _, hd, rfl, hop⟩ := withDevice_run_ok hrun
  rw [junkBytes_bind_run] at hop
  have hfail := smartReadUchar_run_ok hop
  exact ⟨d, hd, hfail⟩

/-- A word of four bytes is asked for. -/
theorem readUlong_asks (cmd : SmartDevice → List UInt8) :
    Asks connected
      (fun dev => withDevice dev fun _ d => do smartReadUlong W (cmd d) (← junkBytes W 4))
      fun w d => exchange W w (cmd d) (junkAnswer W w 4) = none := by
  intro h c r c' hrun
  obtain ⟨d, _, hd, rfl, hop⟩ := withDevice_run_ok hrun
  have hkeep : KeepsLink connected (withDevice (some h) fun _ d => do
      smartReadUlong W (cmd d) (← junkBytes W 4)) :=
    withDevice_keepsLink fun _ => (junkBytes_keepsLink 4).bind (smartReadUlong_keepsLink hlink _)
  refine ⟨hkeep c r c' hrun, ?_⟩
  rw [junkBytes_bind_run] at hop
  have hfail := smartReadUlong_error_iff hop
  exact ⟨d, hd, hfail⟩

/-- SERIAL asks the device. -/
theorem smartidDevSerial_asks : Asks connected (smartidDevSerial W)
    fun w _ => exchange W w [0x14] (junkAnswer W w 4) = none :=
  readUlong_asks hlink fun _ => [0x14]

/-- SIZE asks the device with its token. -/
theorem smartidDevXferSize_asks : Asks connected (smartidDevXferSize W)
    fun w d => exchange W w (tokenCmd 0xc6 d.token) (junkAnswer W w 4) = none :=
  readUlong_asks hlink fun d => tokenCmd 0xc6 d.token

omit hlink in
/-- TCORR asks nothing. -/
theorem smartidDevTcorr_asks : Asks (S := S) connected smartidDevTcorr fun _ _ => False := by
  intro h c r c' hrun
  have hkeep : KeepsLink (S := S) connected (smartidDevTcorr (some h)) :=
    withDevice_keepsLink fun _ => KeepsLink.pure _
  refine ⟨hkeep c r c' hrun, ?_⟩
  obtain ⟨d, _, hd, rfl, ⟨⟩⟩ := withDevice_run_ok hrun
  exact ⟨d, hd, iff_of_false (fun h => nomatch h) id⟩

omit hlink in
/-- TICKS asks nothing. -/
theorem smartidDevTicks_asks : Asks (S := S) connected smartidDevTicks fun _ _ => False := by
  intro h c r c' hrun
  have hkeep : KeepsLink (S := S) connected (smartidDevTicks (some h)) :=
    withDevice_keepsLink fun _ => KeepsLink.pure _
  refine ⟨hkeep c r c' hrun, ?_⟩
  obtain ⟨d, _, hd, rfl, ⟨⟩⟩ := withDevice_run_ok hrun
  exact ⟨d, hd, iff_of_false (fun h => nomatch h) id⟩

end Numbers

/-! ### Blocks

A block is lost if its length or one of its chunks is.
-/

section Blocks

variable {c c' : Conn S} {r : Except Int (List UInt8)} {csize nb : Nat}

/-- The reads of a block of `len` bytes end with a failure or a timeout. -/
def BlockLost (W : Irda S) (csize : Nat) (w : S) (len : Nat) : Prop :=
  ∃ o w', Returns (readChunk W csize) (w, [], len) (o, w') ∧ ∀ data, o ≠ .done data

/-- The errors of a transfer that XFER takes for the end of the device. -/
def TransferLost (r : Except Int (List UInt8)) : Prop :=
  ∃ rv, r = .error rv ∧ rv ≠ smartiStatusNoData ∧ rv ≠ smartiErrorDevice

/-- How a transfer from the device `d` loses the device. -/
def TransferBroken (W : Irda S) (w : S) (d : SmartDevice) : Prop :=
  match exchange W w (tokenCmd 0xc4 d.token) (junkAnswer W w 4) with
  | none => True
  | some (a, w') => 4 < uint32Le a 0 ∧ BlockLost W d.csize w' (uint32Le a 0 - 4)

/-- A transfer that succeeds has lost nothing. -/
theorem not_transferLost_ok (data : List UInt8) : ¬TransferLost (.ok data) := by
  rintro ⟨rv, ⟨⟩, -⟩

/-- The loop over the chunks keeps the link. -/
theorem readChunk_link (hlink : IrdaLink W connected) {w w' : S} {buf : List UInt8} {len : Nat}
    {o : IoResult (List UInt8)} (hret : Returns (readChunk W csize) (w, buf, len) (o, w')) :
    connected w' ↔ connected w := by
  refine hret.invariant (I := fun s => connected s.1 ↔ connected w)
    (Q := fun r => connected r.2 ↔ connected w) ?_ ?_ Iff.rfl
  · rintro ⟨w₁, buf₁, len₁⟩ ⟨w₂, buf₂, len₂⟩ hw₁ hnext
    obtain ⟨-, bytes, hread, -, -⟩ := readChunk_next hnext
    have hlast := hlink.read w₁ (chunkLength csize len₁)
    rw [hread] at hlast
    exact hlast.trans hw₁
  · rintro ⟨w₁, buf₁, len₁⟩ ⟨o, w₂⟩ hw₁ hstop
    have hlast := hlink.read w₁ (chunkLength csize len₁)
    -- the last read leaves the link alone as well, whatever it comes to
    rw [readChunk] at hstop
    split at hstop
    · cases hstop
      exact hw₁
    · split at hstop
      · rename_i hread
        cases hstop
        rw [hread] at hlast
        exact hlast.trans hw₁
      · rename_i hread
        cases hstop
        rw [hread] at hlast
        exact hlast.trans hw₁
      · cases hstop

/-- Behind a block that is lost, `free` has returned. -/
theorem freeForeign_error_run_ok {rv : Int} (hrun : (do
      freeForeign W
      return .error rv : Daemon S (Except Int (List UInt8))).run c = .ok (r, c')) :
    r = .error rv ∧ c' = c := by
  obtain ⟨_, c₁, hfree, ⟨⟩⟩ := run_bind_eq_ok.mp hrun
  exact ⟨rfl, (freeForeign_run_iff.mp hfree).2⟩

/-- The block behind its length. -/
theorem receiveBlock_run_ok (hlink : IrdaLink W connected) {fuel : Nat}
    (hrun : (receiveBlock W fuel csize nb).run c = .ok (r, c')) :
    SameLink connected c c' ∧ (TransferLost r ↔ 4 < nb ∧ BlockLost W csize c.world (nb - 4)) := by
  unfold receiveBlock at hrun
  split at hrun
  · rename_i hfour
    obtain ⟨⟩ := hrun
    refine ⟨SameLink.refl c, iff_of_false ?_ fun h => absurd hfour (Nat.ne_of_gt h.1)⟩
    rintro ⟨rv, ⟨⟩, hrv, -⟩
    exact hrv rfl
  split at hrun
  · rename_i hlow
    obtain ⟨⟩ := hrun
    refine ⟨SameLink.refl c, iff_of_false ?_ fun h => absurd h.1 (Nat.lt_asymm hlow)⟩
    rintro ⟨rv, ⟨⟩, -, hrv⟩
    exact hrv rfl
  have hlt : 4 < nb := by omega
  obtain ⟨o, c₁, hread, hrest⟩ := run_bind_eq_ok.mp hrun
  obtain ⟨w, hret, rfl⟩ := readBlock_run_iff.mp ⟨fuel, hread⟩
  -- whatever the loop has come to, the link is as it was
  have hsame : SameLink connected c { c with world := w } := ⟨readChunk_link hlink hret, rfl⟩
  cases o with
  | failed =>
    obtain ⟨rfl, rfl⟩ := freeForeign_error_run_ok hrest
    exact ⟨hsame, iff_of_true ⟨_, rfl, by decide, by decide⟩ ⟨hlt, _, _, hret, fun _ h => nomatch h⟩⟩
  | timedOut =>
    obtain ⟨rfl, rfl⟩ := freeForeign_error_run_ok hrest
    exact ⟨hsame, iff_of_true ⟨_, rfl, by decide, by decide⟩ ⟨hlt, _, _, hret, fun _ h => nomatch h⟩⟩
  | done data =>
    obtain ⟨⟩ := hrest
    refine ⟨hsame, iff_of_false (not_transferLost_ok data) ?_⟩
    rintro ⟨-, o, w', hret', ho⟩
    obtain ⟨rfl, -⟩ := Prod.mk.inj (hret.unique hret')
    exact ho data rfl

theorem smartidDevXferData_run_ok (hlink : IrdaLink W connected) {fuel h : Nat}
    (hrun : (smartidDevXferData W fuel (some h)).run c = .ok (r, c')) :
    SameLink connected c c' ∧ ∃ d, c.heap h = some d ∧ (TransferLost r ↔ TransferBroken W c.world d) := by
  obtain ⟨d, c₀, hd, hc₀, hop⟩ := withDevice_run_ok hrun
  have hworld : c₀.world = c.world := by rw [hc₀]
  have hsame₀ : SameLink connected c c₀ := by
    rw [hc₀]
    exact ⟨Iff.rfl, rfl⟩
  rw [junkBytes_bind_run, hworld, ← junkAnswer] at hop
  obtain ⟨a, c₁, hread, hrest⟩ := run_bind_eq_ok.mp hop
  have hsame₁ := hsame₀.trans (smartReadUlong_keepsLink hlink _ _ c₀ a c₁ hread)
  have hcases := smartReadUlong_run_ok hread
  rw [hworld] at hcases
  unfold TransferBroken
  rcases hcases with ⟨a, rfl, hex⟩ | ⟨hex, rv, rfl, hrv⟩
  · obtain ⟨hsame₂, hlost⟩ := receiveBlock_run_ok hlink hrest
    refine ⟨hsame₁.trans hsame₂, d, hd, ?_⟩
    rw [hex]
    exact hlost
  · obtain ⟨⟩ := hrest
    refine ⟨hsame₁, d, hd, ?_⟩
    rw [hex]
    exact iff_of_true ⟨rv, rfl, hrv⟩ trivial

end Blocks

/-! ### Connecting

The connect makes the link, and what comes behind it may fail and leaves it there.
-/

section Connecting

variable {c c' : Conn S}

/-- The handshake succeeds exactly if the answers are right. -/
theorem smartDriverHandshake_run_ok {rv : Int}
    (hrun : (smartDriverHandshake W).run c = .ok (rv, c')) :
    rv = 0 ∧ ShakesHands W c.world c'.world ∨ rv ≠ 0 ∧ ∀ w, ¬ShakesHands W c.world w := by
  unfold smartDriverHandshake at hrun
  rw [junkBytes_bind_run, ← junkAnswer] at hrun
  obtain ⟨r₁, c₁, hcmd₁, hrest⟩ := run_bind_eq_ok.mp hrun
  rcases smartDriverCmd_run_ok hcmd₁ with ⟨a₁, rfl, hex₁⟩ | ⟨hex₁, _, rfl, -⟩
  swap
  · obtain ⟨⟩ := hrest
    refine .inr ⟨by decide, ?_⟩
    rintro w ⟨a, w₁, a', hex, -⟩
    rw [hex₁] at hex
    cases hex
  change (if octet a₁ 0 ≠ 1 then pure (-1) else _ : Daemon S Int).run c₁ = _ at hrest
  split at hrest
  · rename_i hone
    obtain ⟨⟩ := hrest
    refine .inr ⟨by decide, ?_⟩
    rintro w ⟨a, w₁, a', hex, hyes, -⟩
    rw [hex₁] at hex
    obtain ⟨⟩ := hex
    exact hone hyes
  rename_i hone
  -- the first answer is 1, and the second command is sent
  obtain ⟨r₂, c₂, hcmd₂, hrest⟩ := run_bind_eq_ok.mp hrest
  rcases smartDriverCmd_run_ok hcmd₂ with ⟨a₂, rfl, hex₂⟩ | ⟨hex₂, _, rfl, -⟩
  swap
  · obtain ⟨⟩ := hrest
    refine .inr ⟨by decide, ?_⟩
    rintro w ⟨a, w₁, a', hex, -, hex', -⟩
    rw [hex₁] at hex
    obtain ⟨⟩ := hex
    rw [hex₂] at hex'
    cases hex'
  change (if octet a₂ 0 ≠ 1 then pure (-1) else pure 0 : Daemon S Int).run c₂ = _ at hrest
  split at hrest
  · rename_i htwo
    obtain ⟨⟩ := hrest
    refine .inr ⟨by decide, ?_⟩
    rintro w ⟨a, w₁, a', hex, -, hex', hyes⟩
    rw [hex₁] at hex
    obtain ⟨⟩ := hex
    rw [hex₂] at hex'
    obtain ⟨⟩ := hex'
    exact htwo hyes
  · rename_i htwo
    obtain ⟨⟩ := hrest
    exact .inl ⟨rfl, a₁, c₁.world, a₂, hex₁, not_not.mp hone, hex₂, not_not.mp htwo⟩

/-- **What a connect comes to.**  When the socket connects, it stays so, whether the device
is greeted or not. -/
theorem smartidDevConnect_run_ok (hlink : IrdaLink W connected) {h addr lsap chunkSize : Nat}
    {d : SmartDevice} (hd : c.heap h = some d) (hticks : d.ticks = 0) {r : Except Int Unit}
    (hrun : (smartidDevConnect W (some h) addr lsap chunkSize).run c = .ok (r, c')) :
    c'.dev = c.dev ∧
      ((∃ w, W.connectLsap c.world addr lsap = (.done (), w) ∧ connected c'.world ∧
          (r = .ok () ↔ Greets W w)) ∨
        (∀ w, W.connectLsap c.world addr lsap ≠ (.done (), w)) ∧ r ≠ .ok () ∧
          (connected c'.world ↔ connected c.world)) := by
  obtain ⟨d', c₀, hd', hc₀, hop⟩ := withDevice_run_ok hrun
  obtain rfl := Option.some.inj (hd'.symm.trans hd)
  obtain ⟨_, c₁, ⟨⟩, hop⟩ := run_bind_eq_ok.mp hop
  obtain ⟨o, c₂, hconnect, hop⟩ := run_bind_eq_ok.mp hop
  subst hc₀
  rcases hres : W.connectLsap c.world addr lsap with ⟨_ | _ | _, w⟩
  · obtain ⟨rfl, rfl⟩ := Prod.mk.inj (Except.ok.inj ((irdaCall_run hres).symm.trans hconnect))
    obtain ⟨⟩ := hop
    exact ⟨rfl, .inr ⟨fun _ h => (nomatch h), fun h => (nomatch h),
      hlink.refuses _ _ _ _ _ hres fun h => (nomatch h)⟩⟩
  · obtain ⟨rfl, rfl⟩ := Prod.mk.inj (Except.ok.inj ((irdaCall_run hres).symm.trans hconnect))
    obtain ⟨⟩ := hop
    exact ⟨rfl, .inr ⟨fun _ h => (nomatch h), fun h => (nomatch h),
      hlink.refuses _ _ _ _ _ hres fun h => (nomatch h)⟩⟩
  · obtain ⟨rfl, rfl⟩ := Prod.mk.inj (Except.ok.inj ((irdaCall_run hres).symm.trans hconnect))
    -- the socket is connected, and nothing that follows takes it apart
    have hconnected : connected w := (hlink.connects _ _ _ _ hres).2
    obtain ⟨rv, c₃, hshake, hop⟩ := run_bind_eq_ok.mp hop
    have hsame₃ := smartDriverHandshake_keepsLink hlink _ _ _ hshake
    change (if rv ≠ 0 then pure (.error smartiErrorHandshake) else _ :
      Daemon S (Except Int Unit)).run c₃ = _ at hop
    rcases smartDriverHandshake_run_ok hshake with ⟨hzero, hhands⟩ | ⟨hzero, hhands⟩
    · rw [if_neg (not_not.mpr hzero)] at hop
      obtain ⟨a, c₄, hread, hop⟩ := run_bind_eq_ok.mp hop
      have hsame₄ := hsame₃.trans (smartReadUlong_keepsLink hlink _ _ _ _ _ hread)
      have hgreets : Greets W w ↔ exchange W c₃.world [0x1a] (uint32Bytes d'.ticks) ≠ none := by
        rw [hticks]
        constructor
        · rintro ⟨w', hhands', hex⟩
          rwa [hhands'.unique hhands] at hex
        · exact fun hex => ⟨c₃.world, hhands, hex⟩
      rcases smartReadUlong_run_ok hread with ⟨ticks, rfl, hex⟩ | ⟨hex, rv, rfl, -⟩
      · obtain ⟨_, c₅, htime, ⟨⟩⟩ := run_bind_eq_ok.mp hop
        have hsame₅ := hsame₄.trans (irdaCall_keepsLink hlink.time _ _ _ htime)
        refine ⟨hsame₅.dev, .inl ⟨w, rfl, hsame₅.link.mpr hconnected, iff_of_true rfl ?_⟩⟩
        rw [hgreets, hex]
        exact fun h => nomatch h
      · obtain ⟨⟩ := hop
        refine ⟨hsame₄.dev, .inl ⟨w, rfl, hsame₄.link.mpr hconnected,
          iff_of_false (fun h => nomatch h) ?_⟩⟩
        rw [hgreets, hex]
        exact not_not.mpr rfl
    · rw [if_pos hzero] at hop
      obtain ⟨⟩ := hop
      refine ⟨hsame₃.dev, .inl ⟨w, rfl, hsame₃.link.mpr hconnected,
        iff_of_false (fun h => nomatch h) ?_⟩⟩
      rintro ⟨w', hhands', -⟩
      exact hhands w' hhands'

end Connecting

end BenthosDc
