/-
BenthosDc/SmartTransfers.lean

The local and the network transfer of one device.

Both drivers are compared with `TransferAnswers.transferred`, and not with one another: the
local driver asks the device itself, and the network driver makes the daemon ask it, with
TOKEN, SIZE and XFER.  The chunks of the two have nothing to do with each other.

The network run goes through the daemon as it is: the line is sent, the daemon answers it, and
the client reads the answer back.
-/
import BenthosDc.SmartOwned
import BenthosDc.SmartiCalm
import BenthosDc.SmartiOwned
import BenthosDc.SmartidTransfers

namespace BenthosDc

open CString Delivery Hoare Lifetime Loop

variable {S T α : Type} {E : Halt → Prop}

/-- A token has 32 bits. -/
theorem transferToken_lt {dcb : Option DeviceCallback} {base : SmartBase} {token : Nat}
    (h : (transferToken dcb base).2 = .ok token) : token < 2 ^ 32 := by
  unfold transferToken at h
  split at h
  · cases h
    decide
  dsimp only at h
  split at h
  · cases h
  split at h
  · cases h
    decide
  split at h
  · cases h
  · cases h
    exact u32_lt _

/-- The application does not cancel the transfer. -/
def NeverCancels (pcb : Option TransferCallback) : Prop :=
  ∀ p, pcb = some p → ∀ n size, p n size = false

/-- No callback, no cancelling. -/
theorem neverCancels_none : NeverCancels none := by
  intro p h
  cases h

/-! ### The local driver

The device is opened, and its socket is at a certain world.  Each call moves the world on, and
nothing else that the transfer depends on.
-/

/-- The driver has a socket, behind which the world is `w`. -/
structure SmartAt (dev csize : Nat) (w : S) (d : Desk (SmartProc S)) : Prop where
  owns : SmartOwns dev true d
  csize : d.state.dev.csize = csize
  world : d.state.world = w

section Local

variable {H : SmartHost S} {dev csize : Nat} {w w' : S} {d : Desk (SmartProc S)}

/-- The device structure has its socket and its chunk size. -/
theorem getDev_at (hd : SmartAt dev csize w d) :
    Triple Smart.getDev d (fun a d' => a.csize = csize ∧ a.s ≠ none ∧ d' = d) E := by
  refine Triple.of_run rfl ⟨hd.csize, ?_, rfl⟩
  intro hnone
  have hsome := hd.owns.valid.1
  rw [hnone] at hsome
  cases hsome

/-- A change that keeps both. -/
theorem setDev_at (hd : SmartAt dev csize w d) {f : SmartDev → SmartDev}
    (hs : ∀ a, (f a).s = a.s) (hcsize : ∀ a, (f a).csize = a.csize) :
    Triple (Smart.setDev f) d (fun _ d' => SmartAt dev csize w d') E := by
  refine Triple.of_run rfl ⟨⟨?_, ?_⟩, (hcsize _).trans hd.csize, hd.world⟩
  · show (f d.state.dev).s.isSome = true ∧ (f d.state.dev).s ≠ some dev
    rw [hs]
    exact hd.owns.valid
  · show insert dev {h | (f d.state.dev).s = some h} ⊆ _
    rw [hs]
    exact hd.owns.live

/-- An error is set, and returned. -/
theorem failWith_at (hd : SmartAt dev csize w d) (code : Int) (msg : Text) (a : α) :
    Triple (do Smart.setDevError code msg; return a) d
      (fun a' d' => a' = a ∧ SmartAt dev csize w d') E := by
  have hset : Triple (Smart.setDevError code msg) d (fun _ d' => SmartAt dev csize w d') E :=
    setDev_at hd (fun _ => rfl) fun _ => rfl
  exact hset.bind fun _ _ hd' => Triple.pure ⟨rfl, hd'⟩

/-- An operation on the socket. -/
theorem onSocket_at (hd : SmartAt dev csize w d) (null : α) {f : S → α × S} {a : α}
    (hf : f w = (a, w')) :
    Triple (Smart.onSocket null f) d (fun r d' => r = a ∧ SmartAt dev csize w' d') E := by
  cases hs : d.state.dev.s with
  | none =>
    have hsome := hd.owns.valid.1
    rw [hs] at hsome
    cases hsome
  | some h =>
    have hget : Smart.getDev.run d = .ok (d.state.dev, d) := rfl
    rw [Triple, Smart.onSocket, run_bind_of_ok hget, hs]
    refine (useHandle_spec (hd.owns.live (Set.mem_insert_of_mem dev hs))
      (Q := fun _ d' => SmartAt dev csize w d') fun l hl => ?_).bind fun _ d₁ hd₁ => ?_
    · exact ⟨hd.owns.of_eq hl, hd.csize, hd.world⟩
    · rw [← hd₁.world] at hf
      exact Triple.of_run rfl ⟨congrArg Prod.fst hf, ⟨hd₁.owns.valid, hd₁.owns.live⟩, hd₁.csize,
        congrArg Prod.snd hf⟩

/-- A command that the device replies to. -/
theorem driverCmd_at (hd : SmartAt dev csize w d) {cmd ans : List UInt8} {n : Nat}
    (hans : ans.length = 4) (hn : n < 2 ^ 32) (hreply : H.toIrda.Replies cmd n w w') :
    Triple (Smart.driverCmd H cmd ans) d
      (fun r d' => (∃ bytes, r = .ok bytes ∧ uint32Le bytes 0 = n) ∧ SmartAt dev csize w' d') E := by
  obtain ⟨k, w₁, hwrite, hread⟩ := hreply
  apply (getDev_at hd).bind
  rintro a _ ⟨-, hs, rfl⟩
  rw [if_neg hs]
  apply (onSocket_at hd _ hwrite).bind
  rintro _ d₁ ⟨rfl, hd₁⟩
  rw [← hans] at hread
  apply (onSocket_at (f := fun w => H.read w ans.length) hd₁ _ hread).bind
  rintro _ d₂ ⟨rfl, hd₂⟩
  exact Triple.pure ⟨⟨_, rfl, uint32Le_received hn hans⟩, hd₂⟩

/-- An unset variable holds some bytes. -/
theorem smartJunk_at (hd : SmartAt dev csize w d) (n : Nat) :
    Triple (Smart.junk H n) d (fun ans d' => ans.length = n ∧ SmartAt dev csize w d') E := by
  refine Triple.of_run rfl ⟨?_, ⟨hd.owns.valid, hd.owns.live⟩, hd.csize, hd.world⟩
  rw [List.length_map, List.length_range]

/-- The loop of the local driver reads the data within as many passes. -/
theorem smartDriverReadData_at {pcb : Option TransferCallback} {size len fuel : Nat}
    {data : List UInt8} (hpcb : NeverCancels pcb)
    (h : Gathered H.toIrda.Gets (chunkLength csize) len w data w') (hfuel : len < fuel)
    (buf : List UInt8) (hd : SmartAt dev csize w d) :
    Triple (smartDriverReadData H pcb size fuel buf len) d
      (fun r d' => r = .ok (buf ++ data) ∧ SmartAt dev csize w' d') E := by
  obtain ⟨fuel, rfl⟩ : ∃ n, fuel = n + 1 := ⟨fuel - 1, by omega⟩
  induction h generalizing buf fuel d with
  | done =>
    rw [smartDriverReadData, if_pos rfl, List.append_nil]
    exact Triple.pure ⟨rfl, hd⟩
  | @more len w w₁ w' piece data hlen hread hne hle _ ih =>
    have hpiece : 0 < piece.length := List.length_pos_iff.mpr hne
    rw [smartDriverReadData, if_neg hlen]
    apply (getDev_at hd).bind
    rintro a _ ⟨rfl, -, rfl⟩
    apply (onSocket_at (f := fun w => H.read w _) hd _ hread).bind
    rintro _ d₁ ⟨rfl, hd₁⟩
    dsimp only
    rw [List.take_of_length_le hle]
    rw [if_neg]
    · obtain ⟨fuel, rfl⟩ : ∃ n, fuel = n + 1 := ⟨fuel - 1, by omega⟩
      rw [← List.append_assoc]
      exact ih (buf ++ piece) hd₁ fuel (by omega)
    · -- the callback does not cancel
      cases pcb with
      | none => exact Bool.false_ne_true
      | some p =>
        show ¬p (buf ++ piece).length size = true
        rw [hpcb p rfl]
        exact Bool.false_ne_true

/-- The part of a transfer behind its size. -/
theorem smartDriverReadBlock_at {pcb : Option TransferCallback} {token fuel : Nat}
    {x : TransferAnswers} (hd : SmartAt dev csize w d) (hcsize : 0 < csize)
    (hpcb : NeverCancels pcb) (hsize : x.size ≠ 0) (hfuel : x.size < fuel)
    (hreply : H.toIrda.Replies (tokenCmd 0xc4 token) x.nb w w')
    (hstream : HandsOut H.toIrda.Gets x.stream w') :
    Triple (smartDriverReadBlock H fuel token x.size pcb) d
      (fun r _ => r.toOption = x.transferred) E := by
  have hsize_lt := x.size_lt
  have hnb_lt := x.nb_lt
  apply (smartJunk_at hd 4).bind
  rintro ans d₁ ⟨hans, hd₁⟩
  apply (driverCmd_at hd₁ hans (by omega) hreply).bind
  rintro _ d₂ ⟨⟨bytes, rfl, hbytes⟩, hd₂⟩
  dsimp only
  have hu32 : u32 (x.size + 4) = x.size + 4 := u32_of_lt (by omega)
  rw [hbytes, hu32, TransferAnswers.transferred, if_neg hsize]
  -- the two lengths differ, and nothing is read
  by_cases heq : x.nb = x.size + 4
  case neg =>
    rw [if_pos heq, if_neg heq]
    exact Triple.of_run rfl rfl
  rw [if_neg (not_not.mpr heq), if_pos heq, if_neg]
  · have hlen : x.size ≤ x.stream.length := by
      have hle := x.le_stream
      omega
    obtain ⟨w'', hgathered⟩ := gathered_chunks hcsize hstream hlen
    apply (smartDriverReadData_at hpcb hgathered hfuel [] hd₂).bind
    rintro _ d₃ ⟨rfl, -⟩
    exact Triple.pure rfl
  · -- the callback does not cancel in front of the first piece
    cases pcb with
    | none => exact Bool.false_ne_true
    | some p =>
      show ¬p 0 x.size = true
      rw [hpcb p rfl]
      exact Bool.false_ne_true

/-- **The local transfer** comes to what the answers of the device come to. -/
theorem smartDriverTransfer_at {dcb : Option DeviceCallback} {pcb : Option TransferCallback}
    {token fuel : Nat} {x : TransferAnswers} (hd : SmartAt dev csize w d) (hcsize : 0 < csize)
    (htoken : (transferToken dcb d.state.dev.base).2 = .ok token) (hpcb : NeverCancels pcb)
    (hserves : H.toIrda.Serves token x w) (hfuel : x.size < fuel) (size : Nat) :
    Triple (smartDriverTransfer H fuel dev size dcb pcb) d
      (fun r _ => r.toOption = x.transferred) E := by
  obtain ⟨w₁, w₂, hsize, hnb, hstream⟩ := hserves
  have huse : Triple (useHandle dev) d (fun _ d' => d'.state = d.state ∧ SmartAt dev csize w d') E :=
    useHandle_spec (hd.owns.live (Set.mem_insert dev _)) fun l hl =>
      ⟨rfl, hd.owns.of_eq hl, hd.csize, hd.world⟩
  refine huse.bind fun _ d₁ h₁ => ?_
  obtain ⟨hstate, hd₁⟩ := h₁
  have hget : Triple Smart.getDev d₁ (fun a d' => a = d₁.state.dev ∧ d' = d₁) E :=
    Triple.of_run rfl ⟨rfl, rfl⟩
  apply hget.bind
  rintro _ _ ⟨rfl, rfl⟩
  dsimp only
  rw [hstate, htoken]
  refine (setDev_at hd₁ ?_ ?_).bind ?_
  · exact fun _ => rfl
  · exact fun _ => rfl
  intro _ d₂ hd₂
  have hsize_lt := x.size_lt
  apply (driverCmd_at hd₂ rfl (by omega) hsize).bind
  rintro _ d₃ ⟨⟨bytes, rfl, hbytes⟩, hd₃⟩
  dsimp only
  rw [hbytes]
  split
  · next hzero =>
    rw [TransferAnswers.transferred, if_pos hzero]
    exact Triple.pure rfl
  · next hne => exact smartDriverReadBlock_at hd₃ hcsize hpcb hne hfuel hnb hstream

end Local

/-! ### The calls of a network transfer

A link is ready if both ends of the socket are empty, and the connection has its device open.
Each of the three commands leaves it ready.
-/

/-- The client and the daemon wait for the next call, with a device open. -/
structure Link.Ready (l : Link S) (d : SmartDevice) (w : S) : Prop where
  synced : Synced l
  calm : Calm l
  opened : l.server.Opened d w

section Client

variable {W : Irda S} {fuel : Nat} {l l' : Link S} {d d' : SmartDevice} {w w' : S} {cmd : Text}

/-- A command that is answered leaves the link ready. -/
theorem Settled.ready (h : Settled W fuel cmd l l')
    (hopened : (connRead W fuel l.server (cmd ++ ['\n'])).1.Opened d w) : l'.Ready d w :=
  ⟨h.synced, h.calm, h.server ▸ hopened⟩

/-- TOKEN gives the token to the daemon's device. -/
theorem smartiClientSetToken_ready (hl : l.Ready d w) {token : Nat} (htoken : token < 2 ^ 32) :
    Triple (smartiClientSetToken W fuel (UInt32.ofNat token)) l
      (fun rc l' => rc = 0 ∧ l'.Ready { d with token := token } w) never := by
  have hcommand : tokenCommand (UInt32.ofNat token) = "TOKEN ".toList ++ decimal token := by
    show "TOKEN ".toList ++ decimal (UInt32.ofNat token).toNat = _
    rw [UInt32.toNat_ofNat_of_lt' htoken]
  have hcmd : ∀ c ∈ tokenCommand (UInt32.ofNat token), isEol c = false :=
    (Call.setToken (UInt32.ofNat token)).command_line
  rw [hcommand] at hcmd
  obtain ⟨hreply, w', rfl, hopened⟩ := connRead_opened W fuel (P := (· = w))
    hl.opened hcmd fun c h hc => (token_shows hc htoken).imp fun _ _ h => ⟨w, rfl, h⟩
  rw [smartiClientSetToken, hcommand]
  apply (statusRequest_calm hcmd hl.synced hl.calm (by decide) hreply).imp
  rintro rc l' ⟨hrc, hsettled⟩
  exact ⟨hrc, hsettled.ready hopened⟩

/-- SIZE gives back what the device says. -/
theorem smartiClientSize_ready (hl : l.Ready d w) {n : Nat} (hn : n < 2 ^ 32)
    (hreply : W.Replies (tokenCmd 0xc6 d.token) n w w') :
    Triple (smartiClientSize W fuel) l (fun r l' => r = .ok n ∧ l'.Ready d w') never := by
  have hcmd := Call.size.command_line
  obtain ⟨hreply', _, rfl, hopened⟩ := connRead_opened W fuel (P := (· = w'))
    hl.opened hcmd fun c h hc => (size_shows hc hn hreply).imp fun _ _ h => ⟨w', rfl, h⟩
  have hplain : "Data Size".toList.all fun c => c != '\n' && c != '\x00' := by decide
  apply (infoRequest_calm hcmd hl.synced hl.calm hplain (by decide) hn le_rfl hreply').imp
  rintro r l' ⟨hr, hsettled⟩
  exact ⟨hr, hsettled.ready hopened⟩

/-- The data that XFER returns; no data is an error. -/
def TransferAnswers.xferData (x : TransferAnswers) : Except Int (Option (List UInt8)) :=
  if 4 < x.nb then .ok (some (x.stream.take (x.nb - 4))) else .error (-1)

/-- XFER gives back the bytes of the device, or an error. -/
theorem smartiClientXfer_ready (hl : l.Ready d w) (hcsize : 0 < d.csize) {x : TransferAnswers}
    (hreply : W.Replies (tokenCmd 0xc4 d.token) x.nb w w')
    (hstream : HandsOut W.Gets x.stream w') (hfuel : x.nb - 4 < fuel) :
    Triple (smartiClientXfer W fuel) l
      (fun r l' => r = x.xferData ∧ ∃ w'', l'.Ready d w'') never := by
  have hcmd := Call.xfer.command_line
  obtain ⟨hreply', w'', -, hopened⟩ := connRead_opened W fuel
    (P := fun _ => True) hl.opened hcmd fun c h hc =>
      (xfer_shows hc hcsize hreply hstream hfuel).imp fun _ _ ⟨w'', h⟩ => ⟨w'', trivial, h⟩
  have hready : ∀ {r : Except Int (Option (List UInt8))}, r = x.xferData →
      Triple (smartiClientXfer W fuel) l
        (fun r' l' => r' = r ∧ Settled W fuel "XFER".toList l l') never →
      Triple (smartiClientXfer W fuel) l
        (fun r l' => r = x.xferData ∧ ∃ w'', l'.Ready d w'') never := by
    rintro _ rfl h
    exact h.imp fun _ _ h => ⟨h.1, w'', h.2.ready hopened⟩
  rw [xferReply] at hreply'
  -- the three replies: no data, no length, and the data
  by_cases hfour : x.nb = 4
  · rw [if_pos hfour] at hreply'
    refine hready ?_ (smartiClientXfer_status hl.synced hl.calm (by decide) (by decide) hreply')
    rw [TransferAnswers.xferData, if_neg (by omega)]
  rw [if_neg hfour] at hreply'
  by_cases hshort : x.nb < 4
  · rw [if_pos hshort] at hreply'
    refine hready ?_ (smartiClientXfer_status hl.synced hl.calm (by decide) (by decide) hreply')
    rw [TransferAnswers.xferData, if_neg (by omega)]
  · rw [if_neg hshort, responseLine_append] at hreply'
    obtain ⟨hne, hlen⟩ := x.encodable (by omega)
    refine hready ?_ (smartiClientXfer_data hl.synced hl.calm hne hlen hreply')
    rw [TransferAnswers.xferData, if_pos (by omega)]

end Client

/-! ### The network driver

The driver is a program over the client, which is total here.
-/

section Network

variable {G : SmartiHost T} {dev : Nat} {sd : SmartDevice} {w : T} {d : Desk (SmartiProc T)}

/-- A call with the client of the device. -/
theorem call_total (hd : SmartiOwns dev d) {m : Client T α} {Q : α → Link T → Prop}
    (hm : Triple m d.state.link Q never) :
    Triple (Smarti.call m) d (fun a d' => Q a d'.state.link ∧ SmartiOwns dev d') E := by
  -- the handles are used, and the link is as it was
  have hlift : ∀ d' : Desk (SmartiProc T), d'.state = d.state → SmartiOwns dev d' →
      Triple (Smarti.liftClient m) d' (fun a d' => Q a d'.state.link ∧ SmartiOwns dev d') E := by
    intro d' hstate hd'
    rw [← hstate] at hm
    refine Smarti.liftClient_triple (hm.mono ?_ ?_)
    · exact fun _ _ hQ => ⟨hQ, hd'.congr rfl rfl rfl⟩
    · rintro _ ⟨⟩
  have hget : Smarti.getDev.run d = .ok (d.state.dev, d) := rfl
  rw [Triple, Smarti.call, run_bind_of_ok hget]
  refine (useHandle_spec hd.client_live (Q := fun _ d' => d'.state = d.state ∧ SmartiOwns dev d')
    fun k hk => ⟨rfl, hd.of_eq hk⟩).bind ?_
  rintro _ d₁ ⟨hstate, hd₁⟩
  have hget₁ : Triple getState d₁ (fun s d' => s = d₁.state ∧ d' = d₁) E :=
    Triple.of_run rfl ⟨rfl, rfl⟩
  apply hget₁.bind
  rintro _ _ ⟨rfl, rfl⟩
  rename_i d₁
  cases hsocket : d₁.state.socket with
  | none => exact hlift d₁ hstate hd₁
  | some s =>
    refine (useHandle_spec (hd₁.socket_live hsocket)
      (Q := fun _ d' => d'.state = d.state ∧ SmartiOwns dev d')
      fun k hk => ⟨hstate, hd₁.of_eq hk⟩).bind ?_
    rintro _ d₂ ⟨hstate₂, hd₂⟩
    exact hlift d₂ hstate₂ hd₂

/-- A transfer that fails leaves the device in use. -/
theorem smartiTransferFail_spec (hd : SmartiOwns dev d) :
    Triple (smartiTransferFail (S := T)) d (fun r _ => r = .error driverErrInternal) E := by
  have herrmsg : Triple (fun l => .ok (l.errmsg, l) : Client T ErrorText) d.state.link
      (fun _ _ => True) never := trivial
  refine ((call_total hd herrmsg).bind fun msg d₁ _ => ?_).bind (Q := fun _ _ => True) fun _ d₂ _ => ?_
  · exact Triple.of_run rfl trivial
  · exact Triple.pure rfl

/-- The part of a transfer behind its size. -/
theorem smartiDriverReadBlock_ready (hd : SmartiOwns dev d) (hl : d.state.link.Ready sd w)
    (hcsize : 0 < sd.csize) {x : TransferAnswers} {w' : T} (hsize : x.size ≠ 0)
    (hreply : G.irda.Replies (tokenCmd 0xc4 sd.token) x.nb w w')
    (hstream : HandsOut G.irda.Gets x.stream w') (hfuel : x.nb - 4 < G.fuel) :
    Triple (smartiDriverReadBlock G x.size) d (fun r _ => r.toOption = x.transferred) E := by
  have hlen : (x.stream.take (x.nb - 4)).length = x.nb - 4 := List.length_take_of_le x.le_stream
  apply (call_total hd (smartiClientXfer_ready hl hcsize hreply hstream hfuel)).bind
  rintro _ d₁ ⟨⟨rfl, -⟩, hd₁⟩
  rw [TransferAnswers.transferred, if_neg hsize, TransferAnswers.xferData]
  -- without data the client has an error, and the driver too
  by_cases hdata : 4 < x.nb
  case neg =>
    rw [if_neg hdata, if_neg (by omega)]
    have herrcode : Triple (fun l => .ok (l.errcode, l) : Client T Int) d₁.state.link
        (fun _ _ => True) never := trivial
    apply (call_total hd₁ herrcode).bind
    rintro code d₂ ⟨-, hd₂⟩
    split
    · exact Triple.of_run rfl rfl
    · apply (smartiTransferFail_spec hd₂).imp
      rintro _ _ rfl
      rfl
  rw [if_pos hdata]
  dsimp only
  rw [Option.map_some, Option.getD_some, Option.getD_some, hlen]
  by_cases heq : x.nb = x.size + 4
  · have hsub : x.nb - 4 = x.size := by omega
    rw [if_pos heq, hsub, if_neg (not_not.mpr rfl)]
    exact Triple.pure rfl
  · have hsub : x.nb - 4 ≠ x.size := by omega
    rw [if_neg heq, if_pos hsub]
    exact Triple.of_run rfl rfl

/-- **The network transfer** comes to what the answers of the device come to. -/
theorem smartiDriverTransfer_ready {dcb : Option DeviceCallback} {token : Nat}
    {x : TransferAnswers} (hd : SmartiOwns dev d) (hl : d.state.link.Ready sd w)
    (hcsize : 0 < sd.csize) (htoken : (transferToken dcb d.state.dev.base).2 = .ok token)
    (hserves : G.irda.Serves token x w) (hfuel : x.nb - 4 < G.fuel) :
    Triple (smartiDriverTransfer G dev dcb) d (fun r _ => r.toOption = x.transferred) E := by
  obtain ⟨w₁, w₂, hsize, hnb, hstream⟩ := hserves
  have hsize_lt := x.size_lt
  have huse : Triple (useHandle dev) d (fun _ d' => d'.state = d.state ∧ SmartiOwns dev d') E :=
    useHandle_spec hd.dev_live fun k hk => ⟨rfl, hd.of_eq hk⟩
  apply huse.bind
  rintro _ d₁ ⟨hstate, hd₁⟩
  have hget : Triple Smarti.getDev d₁ (fun a d' => a = d₁.state.dev ∧ d' = d₁) E :=
    Triple.of_run rfl ⟨rfl, rfl⟩
  apply hget.bind
  rintro _ _ ⟨rfl, rfl⟩
  rename_i d₁
  dsimp only
  rw [hstate, htoken]
  have hset : Triple (Smarti.setDev fun a => { a with base := (transferToken dcb d.state.dev.base).1 })
      d₁ (fun _ d' => d'.state.link = d.state.link ∧ SmartiOwns dev d') E := by
    refine Triple.of_run rfl ⟨?_, hd₁.congr rfl rfl rfl⟩
    show d₁.state.link = d.state.link
    rw [hstate]
  apply hset.bind
  rintro _ d₂ ⟨hlink, hd₂⟩
  rw [← hlink] at hl
  -- TOKEN
  apply (call_total hd₂ (smartiClientSetToken_ready hl (transferToken_lt htoken))).bind
  rintro _ d₃ ⟨⟨rfl, hl₃⟩, hd₃⟩
  rw [if_neg (not_not.mpr rfl)]
  -- SIZE
  apply (call_total hd₃ (smartiClientSize_ready hl₃ (by omega) hsize)).bind
  rintro _ d₄ ⟨⟨rfl, hl₄⟩, hd₄⟩
  dsimp only
  split
  · next hzero =>
    rw [TransferAnswers.transferred, if_pos hzero]
    exact Triple.pure rfl
  · next hne => exact smartiDriverReadBlock_ready hd₄ hl₄ hcsize hne hnb hstream hfuel

end Network

/-! ### The same transfer

Both results are the same function of the answers, and so they are equal.
-/

/-- The local driver has a device open, which gives the answers `x` for the token. -/
structure OpenedLocally (H : SmartHost S) (dev token : Nat) (x : TransferAnswers)
    (d : Desk (SmartProc S)) : Prop where
  owns : SmartOwns dev true d
  csize : 2 ≤ d.state.dev.csize ∧ d.state.dev.csize ≤ 32
  serves : H.toIrda.Serves token x d.state.world

/-- The network driver is connected to a daemon that has such a device open. -/
structure OpenedRemotely (G : SmartiHost T) (dev token : Nat) (x : TransferAnswers)
    (d : Desk (SmartiProc T)) : Prop where
  owns : SmartiOwns dev d
  ready : ∃ sd w, d.state.link.Ready sd w ∧ (2 ≤ sd.csize ∧ sd.csize ≤ 32) ∧
    G.irda.Serves token x w

section Same

variable {H : SmartHost S} {G : SmartiHost T} {dev₁ dev₂ token fuel : Nat} {x : TransferAnswers}
  {d₁ : Desk (SmartProc S)} {d₂ : Desk (SmartiProc T)} {dcb₁ dcb₂ : Option DeviceCallback}
  {pcb : Option TransferCallback}

/-- A result without its error. -/
theorem toOption_eq_some_iff {r : Except Int α} {a : α} : r.toOption = some a ↔ r = .ok a := by
  cases r with
  | error rc => exact ⟨fun h => (nomatch h), fun h => (nomatch h)⟩
  | ok b =>
    show some b = some a ↔ _
    rw [Option.some_inj]
    exact ⟨congrArg Except.ok, Except.ok.inj⟩

/-- **The network transfer is the local transfer**: of two devices that give the same
answers for a token, whatever the chunks, both drivers get the same size and the same
bytes, or neither gets any. -/
theorem networkTransfer_eq_localTransfer (h₁ : OpenedLocally H dev₁ token x d₁)
    (h₂ : OpenedRemotely G dev₂ token x d₂)
    (htoken₁ : (transferToken dcb₁ d₁.state.dev.base).2 = .ok token)
    (htoken₂ : (transferToken dcb₂ d₂.state.dev.base).2 = .ok token) (hpcb : NeverCancels pcb)
    (hfuel₁ : x.size < fuel) (hfuel₂ : x.nb - 4 < G.fuel) (size : Nat) :
    ∃ r₁ d₁' r₂ d₂',
      (smartDriverTransfer H fuel dev₁ size dcb₁ pcb).run d₁ = .ok (r₁, d₁') ∧
      (smartiDriverTransfer G dev₂ dcb₂).run d₂ = .ok (r₂, d₂') ∧
      ∀ n data, r₂ = .ok (n, data) ↔ r₁ = .ok (n, data) := by
  have hat : SmartAt dev₁ d₁.state.dev.csize d₁.state.world d₁ := ⟨h₁.owns, rfl, rfl⟩
  obtain ⟨r₁, d₁', hrun₁, hr₁⟩ := (smartDriverTransfer_at (E := never) hat
    (Nat.lt_of_lt_of_le Nat.two_pos h₁.csize.1) htoken₁ hpcb h₁.serves hfuel₁ size).exists_run
  obtain ⟨sd, w, hready, hcsize, hserves⟩ := h₂.ready
  obtain ⟨r₂, d₂', hrun₂, hr₂⟩ := (smartiDriverTransfer_ready (E := never) h₂.owns hready
    (Nat.lt_of_lt_of_le Nat.two_pos hcsize.1) htoken₂ hserves hfuel₂).exists_run
  refine ⟨r₁, d₁', r₂, d₂', hrun₁, hrun₂, ?_⟩
  intro n data
  rw [← toOption_eq_some_iff, ← toOption_eq_some_iff, hr₁, hr₂]

end Same

/-! ### A device with one byte

A device that hands out its bytes from a list serves as an example for both sides.
-/

/-- The world is what the device has sent and nobody has read yet. -/
def queueHost (x : TransferAnswers) : SmartHost (List UInt8) where
  discover w := (some [], w)
  connectLsap w _ _ := (.done (), w)
  write w cmd := (.done cmd.length, w ++ match cmd with
    | 0xc6 :: _ => uint32Bytes x.size
    | 0xc4 :: _ => uint32Bytes x.nb ++ x.stream
    | _ => [])
  read w n := (.done (w.take n), w.drop n)
  time w := (0, w)
  junk _ _ := 0
  foreignFree := false
  socketOpen w := (true, w)
  setTimeout w _ := (true, w)
  errcode _ := 0

/-- A queue hands out what is in it. -/
theorem queueHost_handsOut (x : TransferAnswers) (xs : List UInt8) :
    HandsOut (queueHost x).toIrda.Gets xs xs := by
  induction hlen : xs.length using Nat.strongRecOn generalizing xs with
  | ind len ih =>
    by_cases hxs : xs = []
    · subst hxs
      exact .nil
    have hpos := List.length_pos_iff.mpr hxs
    have hgets : ∀ n piece s', (queueHost x).toIrda.Gets xs n piece s' →
        piece = xs.take n ∧ s' = xs.drop n := by
      rintro n piece s' h
      cases h
      exact ⟨rfl, rfl⟩
    apply HandsOut.cons
    · intro n _
      exact ⟨xs.take n, xs.drop n, rfl⟩
    · rintro n piece s' hn h
      obtain ⟨rfl, -⟩ := hgets n piece s' h
      refine ⟨?_, List.length_take_le n xs, List.take_prefix n xs⟩
      apply List.ne_nil_of_length_pos
      rw [List.length_take]
      omega
    · rintro n piece s' hn h
      obtain ⟨rfl, rfl⟩ := hgets n piece s' h
      -- a piece that is shorter than asked for is all that there is
      have hdrop : xs.drop (xs.take n).length = xs.drop n := by
        rw [List.length_take]
        rcases Nat.le_total n xs.length with hle | hle
        · rw [Nat.min_eq_left hle]
        · rw [Nat.min_eq_right hle, List.drop_length, List.drop_of_length_le hle]
      rw [hdrop]
      refine ih _ ?_ (xs.drop n) rfl
      rw [List.length_drop]
      omega

/-- Whatever the answers, some device gives them. -/
theorem queueHost_serves (x : TransferAnswers) (token : Nat) :
    (queueHost x).toIrda.Serves token x [] :=
  ⟨[], x.stream, ⟨9, uint32Bytes x.size, rfl, rfl⟩, ⟨9, uint32Bytes x.nb ++ x.stream, rfl, rfl⟩,
    queueHost_handsOut x x.stream⟩

/-- The answers: one byte. -/
def oneByte : TransferAnswers where
  size := 1
  nb := 5
  stream := [7]
  size_lt := by decide
  nb_lt := by decide
  le_stream := by decide

/-- A local driver with its socket. -/
def localDesk : Desk (SmartProc (List UInt8)) where
  state := ⟨[], { SmartDev.fresh with s := some 1 }⟩
  ledger := Ledger.empty.alloc.alloc

theorem localDesk_opened : OpenedLocally (queueHost oneByte) 0 0 oneByte localDesk where
  owns := by
    refine ⟨⟨rfl, by decide⟩, ?_⟩
    rintro h (rfl | hh)
    · show Live _ 0
      decide
    · cases hh
      show Live _ 1
      decide
  csize := by decide
  serves := queueHost_serves oneByte 0

/-- The daemon reads the data in larger chunks. -/
def wideDevice : SmartDevice := { csize := 32 }

/-- A connection of the daemon with its device opened. -/
def wideConn : Conn (List UInt8) where
  world := []
  irda := true
  dev := some 0
  out := []
  heap := Function.update (fun _ => none) 0 (some wideDevice)
  next := 1
  events := [.alloc 0]

theorem wideConn_wellFormed : WellFormed wideConn where
  sound := Sound.nil.alloc (by decide)
  live h := by
    constructor
    · rintro ⟨hmem, -⟩
      cases List.mem_singleton.mp hmem
      rfl
    · intro h
      cases h
      show Live _ 0
      decide
  heap h := by
    show (Function.update (fun _ => none) 0 (some wideDevice) h).isSome ↔ _
    by_cases hh : h = 0
    · subst hh
      simp [wideConn]
    · rw [Function.update_of_ne hh]
      exact ⟨fun h => (nomatch h), fun h => absurd (Option.some.inj h).symm hh⟩
  fresh h hmem := by
    cases List.mem_singleton.mp hmem
    decide

/-- The daemon has the same device. -/
def networkHost : SmartiHost (List UInt8) where
  irda := (queueHost oneByte).toIrda
  fuel := 2
  dial _ _ := none
  clock := 0
  bsize := 0

/-- A write takes a part of a line only, and the first bytes of a reply come one by one. -/
def wideLink : Link (List UInt8) :=
  { Link.dialed ([] : List UInt8) [.accept 3, .again, .arrive 1, .arrive 1] [] with
    connected := true
    server := ⟨some wideConn, []⟩
    channel := Channel.empty
    produced := [] }

theorem wideLink_ready : wideLink.Ready wideDevice [] where
  synced := by
    refine ⟨rfl, ⟨?_, rfl, ?_⟩, rfl, rfl⟩
    · rintro c hc
      cases hc
      rfl
    · rintro c hc
      cases hc
      exact wideConn_wellFormed
  calm := by
    refine ⟨rfl, ?_⟩
    show ∀ e ∈ [NetEvent.accept 3, .again, .arrive 1, .arrive 1], e.Gentle
    simp [NetEvent.Gentle]
  opened := by
    have hheap : wideConn.heap 0 = some wideDevice := by
      show Function.update (fun _ => none) 0 (some wideDevice) 0 = _
      rw [Function.update_self]
    exact ⟨wideConn, 0, rfl, rfl, hheap, rfl, rfl⟩

/-- A network driver with its link. -/
def networkDesk : Desk (SmartiProc (List UInt8)) where
  state := ⟨wideLink, some 2, SmartiDev.fresh 1⟩
  ledger := Ledger.empty.alloc.alloc.alloc

theorem networkDesk_opened : OpenedRemotely networkHost 0 0 oneByte networkDesk where
  owns := by
    refine ⟨⟨by decide, ?_⟩, ?_⟩
    · rintro h hh
      cases hh
      decide
    · rintro h (rfl | rfl | hh)
      · show Live _ 0
        decide
      · show Live _ 1
        decide
      · cases hh
        show Live _ 2
        decide
  ready := ⟨wideDevice, [], wideLink_ready, by decide, queueHost_serves oneByte 0⟩

theorem networkTransfer_oneByte :
    ∃ r₁ d₁' r₂ d₂',
      (smartDriverTransfer (queueHost oneByte) 2 0 0 none none).run localDesk = .ok (r₁, d₁') ∧
      (smartiDriverTransfer networkHost 0 none).run networkDesk = .ok (r₂, d₂') ∧
      ∀ n data, r₂ = .ok (n, data) ↔ r₁ = .ok (n, data) :=
  networkTransfer_eq_localTransfer localDesk_opened networkDesk_opened rfl rfl
    neverCancels_none (by decide) (by decide) 0

end BenthosDc
