/-
BenthosDc/SmartidTransfers.lean

What the daemon replies to TOKEN, SIZE and XFER, as a function of the answers of the
device.

A connection shows its device, its world and its output, and each step of a command is followed
by what it shows then.
-/
import BenthosDc.SmartAnswers
import BenthosDc.SmartidServer

namespace BenthosDc

open CString Delivery Hoare Loop SmartiCmd

variable {S α : Type} {W : Irda S} {fuel : Nat} {E : Halt → Prop}

/-! ### A connection with a device

The steps of the three commands, one lemma each.
-/

/-- The connection has the device `d` open under the handle `h`, with the world `w` behind
it, and `text` in its output. -/
structure Conn.Shows (c : Conn S) (h : Nat) (d : SmartDevice) (w : S) (text : Text) : Prop where
  dev : c.dev = some h
  heap : c.heap h = some d
  world : c.world = w
  out : c.out = text

section Shows

variable {c : Conn S} {h : Nat} {d : SmartDevice} {w w' : S} {text : Text}

/-- Text is added to the output. -/
theorem evbufferAdd_shows (hc : c.Shows h d w text) (t : Text) :
    Triple (evbufferAdd t) c (fun _ c' => c'.Shows h d w (text ++ t)) E :=
  Triple.modify ⟨hc.dev, hc.heap, hc.world, congrArg (· ++ t) hc.out⟩

/-- A line is added to the output. -/
theorem sendResponse_shows (hc : c.Shows h d w text) {code : Int} (hcode : StatusCode code)
    (msg : Text) :
    Triple (smartidConnSendResponse code msg) c
      (fun _ c' => c'.Shows h d w (text ++ responseLine code msg)) E := by
  have hmod : code % 2 ^ 16 = code := by
    obtain ⟨hlow, hhigh, -⟩ := hcode
    exact Int.emod_eq_of_lt (by omega) (by omega)
  rw [smartidConnSendResponse, hmod]
  exact evbufferAdd_shows hc _

/-- A line that fits its buffer is added to the output. -/
theorem sendResponsef_shows (hc : c.Shows h d w text) {code : Int} (hcode : StatusCode code)
    {msg : Text} (hmsg : msg.length ≤ 2046) :
    Triple (smartidConnSendResponsef code msg) c
      (fun _ c' => c'.Shows h d w (text ++ responseLine code msg)) E := by
  rw [smartidConnSendResponsef, List.take_of_length_le hmsg]
  exact sendResponse_shows hc hcode msg

/-- The device of the connection is passed on. -/
theorem checkDevice_shows (hc : c.Shows h d w text) {k : Option Nat → Daemon S Unit}
    {Q : Unit → Conn S → Prop} (hk : Triple (k (some h)) c Q E) : Triple (checkDevice k) c Q E := by
  have hdev : smartidConnDevice.run c = .ok (some h, c) := by
    rw [← hc.dev]
    rfl
  rw [Triple, checkDevice, run_bind_of_ok hdev]
  exact hk

/-- An operation is entered with the structure behind the handle. -/
theorem withDevice_shows (hc : c.Shows h d w text)
    {op : Nat → SmartDevice → Daemon S (Except Int α)} {Q : Except Int α → Conn S → Prop}
    (hop : ∀ c', c'.Shows h d w text → Triple (op h d) c' Q E) :
    Triple (withDevice (some h) op) c Q E := by
  rw [Triple, withDevice_run hc.heap]
  exact hop _ ⟨hc.dev, hc.heap, hc.world, hc.out⟩

/-- Memory that has not been written. -/
theorem junkBytes_shows (hc : c.Shows h d w text) (n : Nat) :
    Triple (junkBytes W n) c (fun ans c' => ans.length = n ∧ c'.Shows h d w text) E := by
  have hrun : (junkBytes W n).run c = .ok ((List.range n).map (W.junk c.world), c) := rfl
  refine Triple.of_run hrun ⟨?_, hc⟩
  rw [List.length_map, List.length_range]

/-- A number is read from a device that replies. -/
theorem smartReadUlong_shows (hc : c.Shows h d w text) {cmd ans : List UInt8} {n : Nat}
    (hans : ans.length = 4) (hn : n < 2 ^ 32) (hreply : W.Replies cmd n w w') :
    Triple (smartReadUlong W cmd ans) c (fun r c' => r = .ok n ∧ c'.Shows h d w' text) E := by
  obtain ⟨k, w₁, hwrite, hread⟩ := hreply
  rw [← hc.world] at hwrite
  rw [← hans] at hread
  have hrun := smartReadUlong_run hwrite hread
  rw [uint32Le_received hn hans] at hrun
  exact Triple.of_run hrun ⟨rfl, hc.dev, hc.heap, rfl, hc.out⟩

/-! ### TOKEN

The token is stored, and SIZE and XFER use it.
-/

/-- The structure has the token. -/
theorem smartidDevSetToken_shows (hc : c.Shows h d w text) (token : Nat) :
    Triple (smartidDevSetToken (some h) token) c
      (fun r c' => r = .ok () ∧ c'.Shows h { d with token := token } w text) E := by
  refine withDevice_shows hc fun c' hc' => ?_
  refine Triple.of_run rfl ⟨rfl, hc'.dev, ?_, hc'.world, hc'.out⟩
  exact Function.update_self ..

/-- A token that has been written is read back. -/
theorem scanToken_decimal {token : Nat} (htoken : token < 2 ^ 32) :
    scanToken (cstr (decimal token)) = some token := by
  have hread : strtoul (decimal token ++ []) = some (token, []) :=
    strtoul_decimal (by omega) rfl
  rw [List.append_nil] at hread
  rw [scanToken, cstr_eq (not_mem_decimal (by decide) token), hread]
  exact congrArg some (u32_of_lt htoken)

/-- **TOKEN** sets the token. -/
theorem token_shows (hc : c.Shows h d w text) {token : Nat} (htoken : token < 2 ^ 32) :
    Triple (smartidCmdProcess W fuel ("TOKEN ".toList ++ decimal token)) c
      (fun _ c' => c'.Shows h { d with token := token } w
        (text ++ responseLine smartiStatusSuccess "Token Set".toList)) E := by
  have hline : "TOKEN ".toList ++ decimal token = "TOKEN".toList ++ ' ' :: decimal token := rfl
  rw [hline]
  have hname : commandName ("TOKEN".toList ++ ' ' :: decimal token) = "TOKEN".toList :=
    commandName_word (by decide) (by decide)
  have hne : commandName ("TOKEN".toList ++ ' ' :: decimal token) ≠ [] := by
    rw [hname]
    decide
  -- the line is the command TOKEN with a number
  have hcmd : lookupCommand ((commandName ("TOKEN".toList ++ ' ' :: decimal token)).map
      Char.toLower) = some cmdToken := by
    rw [hname]
    decide
  rw [process_func hne hcmd, commandParams_word (by decide) (by decide)]
  show Triple (smartidCmdToken _) c _ E
  rw [smartidCmdToken, checkParams]
  apply checkDevice_shows hc
  rw [scanToken_decimal htoken]
  apply (smartidDevSetToken_shows hc token).bind
  rintro _ c' ⟨rfl, hc'⟩
  exact sendResponse_shows hc' (by decide) _

/-! ### SIZE

The reply has the size that the device says.
-/

/-- **SIZE** replies what the device answers. -/
theorem size_shows (hc : c.Shows h d w text) {n : Nat} (hn : n < 2 ^ 32)
    (hreply : W.Replies (tokenCmd 0xc6 d.token) n w w') :
    Triple (smartidCmdProcess W fuel "SIZE".toList) c
      (fun _ c' => c'.Shows h d w'
        (text ++ responseLine smartiStatusInfo ("Data Size: ".toList ++ decimal n))) E := by
  have hcmd : lookupCommand ((commandName "SIZE".toList).map Char.toLower) = some cmdSize := by
    decide
  have hparams : commandParams "SIZE".toList = none := by decide
  rw [process_func (by decide) hcmd, hparams]
  show Triple (smartidCmdSize W none) c _ E
  rw [smartidCmdSize, infoCommand, checkNoParams]
  apply checkDevice_shows hc
  have hsize : Triple (smartidDevXferSize W (some h)) c
      (fun r c' => r = .ok n ∧ c'.Shows h d w' text) E :=
    withDevice_shows hc fun c₁ hc₁ => (junkBytes_shows hc₁ 4).bind fun ans c₂ hc₂ =>
      smartReadUlong_shows hc₂.2 hc₂.1 hn hreply
  apply hsize.bind
  rintro _ c' ⟨rfl, hc'⟩
  apply sendResponsef_shows hc' (by decide)
  -- the reply fits into its buffer
  have hdigits : (decimal n).length ≤ 10 := length_decimal_le (by omega) (by decide)
  rw [List.length_append]
  show 11 + _ ≤ _
  omega

/-! ### XFER

The block is read chunk by chunk, and sent as one line of base64.
-/

/-- The reply to XFER. -/
def xferReply (x : TransferAnswers) : Text :=
  if x.nb = 4 then responseLine smartiStatusNoData "No Data".toList
  else if x.nb < 4 then responseLine smartiErrorDevice "Device Error".toList
  else
    responseLine smartiDataFollows ("Data Follows: ".toList ++
      decimal (padTriples (x.stream.take (x.nb - 4))).length) ++
      (padTriples (x.stream.take (x.nb - 4)) ++ ['\n'])

/-- The loop over the chunks. -/
theorem readBlock_shows (hc : c.Shows h d w text) {csize len : Nat} {stream : List UInt8}
    (hcsize : 0 < csize) (hstream : HandsOut W.Gets stream w) (hlen : len ≤ stream.length)
    (hfuel : len < fuel) :
    Triple (readBlock W fuel csize len) c
      (fun r c' => r = .done (stream.take len) ∧ ∃ w', c'.Shows h d w' text) E := by
  rw [← hc.world] at hstream
  obtain ⟨w', hgathered⟩ := gathered_chunks hcsize hstream hlen
  have hrun : (readBlock W fuel csize len).run c =
      .ok (.done (stream.take len), { c with world := w' }) := by
    show readBlock W fuel csize len c = _
    rw [readBlock, iterate_readChunk hgathered hfuel, List.nil_append]
  exact Triple.of_run hrun ⟨rfl, w', hc.dev, hc.heap, rfl, hc.out⟩

/-- The data fits into the base64 encoder. -/
theorem TransferAnswers.encodable (x : TransferAnswers) (hx : 4 < x.nb) :
    x.stream.take (x.nb - 4) ≠ [] ∧ (x.stream.take (x.nb - 4)).length ≤ maxEncodable := by
  have hlen : (x.stream.take (x.nb - 4)).length = x.nb - 4 := List.length_take_of_le x.le_stream
  have hnb := x.nb_lt
  constructor
  · apply List.ne_nil_of_length_pos
    omega
  · rw [hlen, maxEncodable]
    omega

/-- **XFER** replies with the data, as many bytes as the device has announced. -/
theorem xfer_shows (hc : c.Shows h d w text) (hcsize : 0 < d.csize) {x : TransferAnswers}
    (hreply : W.Replies (tokenCmd 0xc4 d.token) x.nb w w')
    (hstream : HandsOut W.Gets x.stream w') (hfuel : x.nb - 4 < fuel) :
    Triple (smartidCmdProcess W fuel "XFER".toList) c
      (fun _ c' => ∃ w'', c'.Shows h d w'' (text ++ xferReply x)) E := by
  have hcmd : lookupCommand ((commandName "XFER".toList).map Char.toLower) = some cmdXfer := by
    decide
  have hparams : commandParams "XFER".toList = none := by decide
  have hnb := x.nb_lt
  rw [process_func (by decide) hcmd, hparams]
  show Triple (smartidCmdXfer W fuel none) c _ E
  rw [smartidCmdXfer, checkNoParams]
  apply checkDevice_shows hc
  -- the length, and the block behind it
  have hdata : Triple (smartidDevXferData W fuel (some h)) c
      (fun r c' => (∃ w'', c'.Shows h d w'' text) ∧
        r = if x.nb = 4 then .error smartiStatusNoData
          else if x.nb < 4 then .error smartiErrorDevice
          else .ok (x.stream.take (x.nb - 4))) E := by
    refine withDevice_shows hc fun c₁ hc₁ => ?_
    apply (junkBytes_shows hc₁ 4).bind
    rintro ans c₂ ⟨hans, hc₂⟩
    apply (smartReadUlong_shows hc₂ hans (by omega) hreply).bind
    rintro _ c₃ ⟨rfl, hc₃⟩
    show Triple (receiveBlock W fuel d.csize x.nb) c₃ _ E
    rw [receiveBlock]
    split
    · exact Triple.pure ⟨⟨w', hc₃⟩, rfl⟩
    split
    · exact Triple.pure ⟨⟨w', hc₃⟩, rfl⟩
    apply (readBlock_shows hc₃ hcsize hstream x.le_stream hfuel).bind
    rintro _ c₄ ⟨rfl, hc₄⟩
    exact Triple.pure ⟨hc₄, rfl⟩
  apply hdata.bind
  rintro _ c' ⟨⟨w'', hc'⟩, rfl⟩
  rw [xferReply]
  split
  · exact (sendResponse_shows hc' (by decide) _).imp fun _ _ h => ⟨w'', h⟩
  split
  · exact (sendResponse_shows hc' (by decide) _).imp fun _ _ h => ⟨w'', h⟩
  · obtain ⟨hne, hlen⟩ := x.encodable (by omega)
    show Triple (smartidConnSendBuffer _) c' _ E
    rw [sendBuffer_eq hne hlen]
    refine (evbufferAdd_shows hc' _).bind fun _ c₁ hc₁ => ?_
    refine (evbufferAdd_shows hc₁ _).imp fun _ c₂ hc₂ => ⟨w'', ?_⟩
    rwa [List.append_assoc] at hc₂

end Shows

/-! ### The daemon between two commands

Nothing waits in either direction, and the device is open.
-/

/-- The daemon waits for a line, with a device open. -/
def Server.Opened (s : Server S) (d : SmartDevice) (w : S) : Prop :=
  ∃ c h, s = ⟨some c, []⟩ ∧ c.Shows h d w []

/-- A command that comes to its end is replied to, and the daemon waits again. -/
theorem connRead_opened (W : Irda S) (fuel : Nat) {s : Server S} {d d' : SmartDevice} {w : S}
    {P : S → Prop} {line reply : Text} (hs : s.Opened d w) (hline : ∀ c ∈ line, isEol c = false)
    (hrun : ∀ c h, c.Shows h d w [] →
      Triple (smartidCmdProcess W fuel line) c (fun _ c' => ∃ w', P w' ∧ c'.Shows h d' w' reply) never) :
    (connRead W fuel s (line ++ ['\n'])).2 = reply ∧
      ∃ w', P w' ∧ (connRead W fuel s (line ++ ['\n'])).1.Opened d' w' := by
  obtain ⟨c, h, rfl, hc⟩ := hs
  obtain ⟨_, c', hend, w', hw', hc'⟩ := (hrun c h hc).exists_run
  rw [connRead_command hline hend]
  exact ⟨hc'.out, w', hw', _, h, rfl, hc'.dev, hc'.heap, hc'.world, rfl⟩

end BenthosDc
