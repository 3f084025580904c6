/-
BenthosDc/ChunkSizes.lean

The chunk size from the arguments of a driver to the device.

The local driver clamps the number that it reads to the range from 2 to 32.  The network driver
hands it to `smarti_client_open` as a `uint8_t`; it is clamped there, sent as a number with
OPEN, and clamped again by `smartid_dev_connect`.

* `Chunked`: the open device of the daemon works with a chunk size.  All commands that the
  network driver sends keep this true.
* `chunkSizes_agree_iff`: the two drivers come to the chunk size of the arguments, clamped, if
  and only if nothing is lost in the eight bits.

The theorem is about the number at both ends, so both opens are run: the local one up to the
field of its device, and the one over the network through the driver, the client and the daemon
to the field of the device there.  In between nothing looks at the number; that is what
`Untouched` says of the parts of the daemon, and `Chunked` carries it over the lines that are
sent behind OPEN.
-/
import BenthosDc.SmartiKeeps
import BenthosDc.SmartiWire
import BenthosDc.SmartidLinkRuns

namespace BenthosDc

open CString Hoare Lifetime SmartiCmd

variable {S T α : Type}

/-! ### The clamps -/

/-- Between 2 and 32. -/
theorem clampChunkSize_eq (c : Nat) : clampChunkSize c = min 32 (max 2 c) := by
  simp only [clampChunkSize]
  split <;> split <;> omega

/-- Clamping twice is clamping once. -/
theorem clampChunkSize_idem (c : Nat) : clampChunkSize (clampChunkSize c) = clampChunkSize c := by
  simp only [clampChunkSize_eq]
  omega

/-- The clamp of the client is that of the drivers, on eight bits. -/
theorem clampChunk_toNat (chunkSize : UInt8) :
    (clampChunk chunkSize).toNat = clampChunkSize chunkSize.toNat := by
  have hlow : chunkSize < 2 ↔ chunkSize.toNat < 2 := UInt8.lt_iff_toNat_lt
  have hhigh : chunkSize > 32 ↔ chunkSize.toNat > 32 := UInt8.lt_iff_toNat_lt
  unfold clampChunk clampChunkSize
  by_cases h : chunkSize < 2
  · rw [if_pos h, if_pos (hlow.mp h)]
    rfl
  · rw [if_neg h, if_neg (fun h' => h (hlow.mpr h'))]
    by_cases h' : chunkSize > 32
    · rw [if_pos h', if_pos (hhigh.mp h')]
      rfl
    · rw [if_neg h', if_neg (fun h => h' (hhigh.mpr h))]

/-- **What the eight bits lose**: numbers from 256 on whose last eight bits are below 32. -/
theorem clampChunkSize_mod_iff (c : Nat) :
    clampChunkSize (c % 256) = clampChunkSize c ↔ c < 256 ∨ 32 ≤ c % 256 := by
  simp only [clampChunkSize_eq]
  omega

/-! ### The open device of the daemon -/

/-- The device of the connection works with the chunk size `k`, if there is one. -/
def Chunked (k : Nat) (c : Conn S) : Prop :=
  ∀ h d, c.dev = some h → c.heap h = some d → d.csize = k

/-- Without a device there is nothing to ask. -/
theorem chunked_of_none {k : Nat} {c : Conn S} (hdev : c.dev = none) : Chunked k c := by
  intro h d hdev'
  rw [hdev] at hdev'
  cases hdev'

/-- `conn->dev` and all structures stay as they are. -/
structure SameDevices (c c' : Conn S) : Prop where
  dev : c'.dev = c.dev
  heap : c'.heap = c.heap

instance : IsPreorder (Conn S) SameDevices where
  refl _ := ⟨rfl, rfl⟩
  trans _ _ _ h h' := ⟨h'.dev.trans h.dev, h'.heap.trans h.heap⟩

/-- A program that does not touch the devices. -/
abbrev Untouched (m : Daemon S α) : Prop := Within SameDevices (fun _ => True) anyHalt m

section Daemon

variable {W : Irda S} {k : Nat} {c : Conn S}

/-- The same devices, the same chunk size. -/
theorem SameDevices.chunked {c' : Conn S} (h : SameDevices c c') (hc : Chunked k c) :
    Chunked k c' := by
  intro i d hdev hd
  rw [h.dev] at hdev
  rw [h.heap] at hd
  exact hc i d hdev hd

/-- What does not touch the devices keeps the chunk size. -/
theorem Untouched.maintains {m : Daemon S α} (hm : Untouched m) :
    Maintains (Chunked k) (fun _ => True) anyHalt m := fun c hc =>
  (hm c).imp fun _ _ h => ⟨trivial, h.2.chunked hc⟩

/-- The IrDA socket is not a device structure. -/
theorem irdaCall_untouched (f : S → α × S) : Untouched (irdaCall f) := fun _ =>
  Triple.of_run rfl ⟨trivial, rfl, rfl⟩

/-- Nor is the output. -/
theorem evbufferAdd_untouched (text : Text) : Untouched (S := S) (evbufferAdd text) :=
  Within.modify trivial fun _ => ⟨rfl, rfl⟩

/-- A command to the device. -/
theorem smartDriverCmd_untouched (cmd ans : List UInt8) : Untouched (smartDriverCmd W cmd ans) := by
  apply (irdaCall_untouched _).bind
  rintro (_ | _ | _) -
  · exact Within.pure trivial
  · exact Within.pure trivial
  apply (irdaCall_untouched _).bind
  rintro (_ | _ | _) -
  · exact Within.pure trivial
  · exact Within.pure trivial
  · exact Within.pure trivial

/-- A number of one byte. -/
theorem smartReadUchar_untouched (cmd ans : List UInt8) : Untouched (smartReadUchar W cmd ans) := by
  apply (smartDriverCmd_untouched cmd ans).bind
  rintro (_ | _) -
  · exact Within.pure trivial
  · exact Within.pure trivial

/-- A number of four bytes. -/
theorem smartReadUlong_untouched (cmd ans : List UInt8) : Untouched (smartReadUlong W cmd ans) := by
  apply (smartDriverCmd_untouched cmd ans).bind
  rintro (_ | _) -
  · exact Within.pure trivial
  · exact Within.pure trivial

/-- The two commands of the handshake. -/
theorem smartDriverHandshake_untouched : Untouched (smartDriverHandshake W) := by
  refine (irdaCall_untouched _).bind fun ans _ => (smartDriverCmd_untouched _ ans).bind ?_
  rintro (_ | ans) -
  · exact Within.pure trivial
  dsimp only
  split
  · exact Within.pure trivial
  apply (smartDriverCmd_untouched _ ans).bind
  rintro (_ | ans) -
  · exact Within.pure trivial
  dsimp only
  split
  · exact Within.pure trivial
  · exact Within.pure trivial

/-- What has been freed cannot be read. -/
theorem deref_dangling {h : Nat} (hd : c.heap h = none) : (deref h).run c = .error .dangling := by
  show deref h c = _
  rw [deref, hd]

/-- A structure that is there is read, and its use goes on record. -/
theorem withDevice_untouched {op : Nat → SmartDevice → Daemon S (Except Int α)}
    (hop : ∀ h d, Untouched (op h d)) (dev : Option Nat) : Untouched (withDevice dev op) := by
  cases dev with
  | none => exact Within.pure trivial
  | some h =>
    intro c
    cases hd : c.heap h with
    | none => exact Triple.of_run_error (run_bind_of_error (deref_dangling hd)) trivial
    | some d =>
      rw [Triple, withDevice_run hd]
      apply (hop h d _).imp
      rintro r c' ⟨-, hsame⟩
      exact ⟨trivial, hsame.dev, hsame.heap⟩

/-- A reply of error. -/
theorem deviceError_untouched (rv : Int) : Untouched (S := S) (deviceError rv) := by
  unfold deviceError
  split
  · exact evbufferAdd_untouched _
  split
  · exact evbufferAdd_untouched _
  · exact evbufferAdd_untouched _

/-- A reply of error to OPEN. -/
theorem connectError_untouched (rv : Int) : Untouched (S := S) (connectError rv) := by
  unfold connectError
  split
  · exact evbufferAdd_untouched _
  split
  · exact evbufferAdd_untouched _
  split
  · exact evbufferAdd_untouched _
  split
  · exact evbufferAdd_untouched _
  · exact evbufferAdd_untouched _

/-- Behind an error the device is gone. -/
theorem dropDevice_forgets (c : Conn S) :
    Triple dropDevice c (fun _ c' => c'.dev = none) anyHalt := by
  have hdevice : Triple smartidConnDevice c (fun _ _ => True) anyHalt := Triple.of_run rfl trivial
  have hdispose : ∀ dev c, Triple (smartidDevDispose (S := S) dev) c (fun _ _ => True) anyHalt := by
    intro dev c
    rw [Triple]
    split <;> trivial
  exact hdevice.bind fun dev c₁ _ => (hdispose dev c₁).bind fun _ c₂ _ => Triple.modify rfl

/-- Without a device there is no chunk size to keep. -/
theorem dropDevice_chunked : Maintains (Chunked (S := S) k) (fun _ => True) anyHalt dropDevice :=
  fun c _ => (dropDevice_forgets c).imp fun _ _ hdev => ⟨trivial, chunked_of_none hdev⟩

/-- A command without parameters, or a usage error. -/
theorem checkNoParams_chunked (cmd : SmartiCmd) (params : Option Text) {m : Daemon S Unit}
    (hm : Maintains (Chunked k) (fun _ => True) anyHalt m) :
    Maintains (Chunked k) (fun _ => True) anyHalt (checkNoParams cmd params m) := by
  cases params with
  | none => exact hm
  | some p => exact (evbufferAdd_untouched _).maintains

/-- A command that asks for a number. -/
theorem infoCommand_chunked (cmd : SmartiCmd) (text : Text)
    {ask : Option Nat → Daemon S (Except Int Nat)} {failure : Int → Daemon S Unit}
    (hask : ∀ dev, Untouched (ask dev)) (hfail : ∀ rv, Untouched (failure rv))
    (params : Option Text) :
    Maintains (Chunked k) (fun _ => True) anyHalt (infoCommand cmd text ask failure params) := by
  apply checkNoParams_chunked cmd params
  have hdevice : Untouched (smartidConnDevice (S := S)) := fun _ =>
    Triple.of_run rfl ⟨trivial, rfl, rfl⟩
  refine hdevice.maintains.bind fun dev _ => ?_
  cases dev with
  | none => exact (evbufferAdd_untouched _).maintains
  | some h =>
    apply (hask (some h)).maintains.bind
    rintro (rv | n) -
    · exact (hfail rv).maintains.bind fun _ _ => dropDevice_chunked
    · exact (evbufferAdd_untouched _).maintains

theorem smartidCmdModel_chunked (params : Option Text) :
    Maintains (Chunked k) (fun _ => True) anyHalt (smartidCmdModel W params) := by
  refine infoCommand_chunked _ _ (fun dev => withDevice_untouched (fun _ _ => ?_) dev)
    deviceError_untouched params
  exact (irdaCall_untouched _).bind fun _ _ => smartReadUchar_untouched _ _

theorem smartidCmdSerial_chunked (params : Option Text) :
    Maintains (Chunked k) (fun _ => True) anyHalt (smartidCmdSerial W params) := by
  refine infoCommand_chunked _ _ (fun dev => withDevice_untouched (fun _ _ => ?_) dev)
    deviceError_untouched params
  exact (irdaCall_untouched _).bind fun _ _ => smartReadUlong_untouched _ _

theorem smartidCmdTicks_chunked (params : Option Text) :
    Maintains (Chunked (S := S) k) (fun _ => True) anyHalt (smartidCmdTicks params) :=
  infoCommand_chunked _ _ (withDevice_untouched fun _ _ => Within.pure trivial)
    (fun _ => evbufferAdd_untouched _) params

theorem smartidCmdEnum_chunked (params : Option Text) :
    Maintains (Chunked k) (fun _ => True) anyHalt (smartidCmdEnum W params) := by
  apply checkNoParams_chunked cmdEnum params
  have hirda : Untouched (smartidConnIrda (S := S)) := fun _ =>
    Triple.of_run rfl ⟨trivial, rfl, rfl⟩
  refine hirda.maintains.bind fun irda _ => ?_
  split
  · exact (evbufferAdd_untouched _).maintains
  apply (irdaCall_untouched _).maintains.bind
  rintro (_ | _ | ⟨d, ds⟩) -
  · exact (evbufferAdd_untouched _).maintains
  · exact (evbufferAdd_untouched _).maintains
  · exact Maintains.forM (fun _ => (evbufferAdd_untouched _).maintains) trivial _

/-- The structure behind a handle works with the chunk size `k`, and no device is open. -/
structure Prepared (k h : Nat) (c : Conn S) : Prop where
  dev : c.dev = none
  csize : ∀ d, c.heap h = some d → d.csize = k

/-- A device that is being opened, with the same devices. -/
theorem SameDevices.prepared {h : Nat} {c' : Conn S} (hsame : SameDevices c c')
    (hc : Prepared k h c) : Prepared k h c' := by
  refine ⟨hsame.dev.trans hc.dev, fun d hd => ?_⟩
  rw [hsame.heap] at hd
  exact hc.csize d hd

/-- The new device has the chunk size. -/
theorem setHeap_prepared {h : Nat} {d : SmartDevice} (hd : d.csize = k) (hdev : c.dev = none) :
    Triple (setHeap h (some d)) c (fun _ c' => Prepared k h c') anyHalt := by
  refine Triple.modify ⟨hdev, fun d' hd' => ?_⟩
  have hd' : Function.update c.heap h (some d) h = some d' := hd'
  rw [Function.update_self] at hd'
  cases hd'
  exact hd

/-- **The device is given the chunk size**, clamped. -/
theorem smartidDevConnect_prepared (hdev : c.dev = none) (h addr lsap chunkSize : Nat) :
    Triple (smartidDevConnect W (some h) addr lsap chunkSize) c
      (fun _ c' => Prepared (clampChunkSize chunkSize) h c') anyHalt := by
  cases hd : c.heap h with
  | none => exact Triple.of_run_error (run_bind_of_error (deref_dangling hd)) trivial
  | some d =>
    rw [smartidDevConnect, Triple, withDevice_run hd]
    -- the structure is set first, and what the device answers does not change it
    refine Triple.bind (setHeap_prepared rfl hdev) fun _ c₁ hc₁ => ?_
    have hkeep : ∀ {β : Type} {m : Daemon S β} {c₁ : Conn S}, Untouched m →
        Prepared (clampChunkSize chunkSize) h c₁ →
        Triple m c₁ (fun _ c' => Prepared (clampChunkSize chunkSize) h c') anyHalt := by
      intro β m c₁ hm hc₁
      exact (hm c₁).imp fun _ _ h => h.2.prepared hc₁
    apply (hkeep (irdaCall_untouched _) hc₁).bind
    rintro (_ | _ | _) c₂ hc₂
    · exact Triple.pure hc₂
    · exact Triple.pure hc₂
    refine (hkeep smartDriverHandshake_untouched hc₂).bind fun rv c₃ hc₃ => ?_
    dsimp only
    split
    · exact Triple.pure hc₃
    apply (hkeep (smartReadUlong_untouched _ _) hc₃).bind
    rintro (rv | ticks) c₄ hc₄
    · exact Triple.pure hc₄
    refine (hkeep (irdaCall_untouched _) hc₄).bind fun now c₅ hc₅ => ?_
    exact Triple.bind (setHeap_prepared rfl hc₅.dev) fun _ _ hc₆ => Triple.pure hc₆

/-- **OPEN** keeps the chunk size, if its number is that chunk size. -/
theorem smartidCmdOpen_chunked {params : Text} {addr lsap chunkSize : Nat}
    (hscan : scanOpen params = some (addr, lsap, chunkSize)) (hk : clampChunkSize chunkSize = k) :
    Maintains (Chunked k) (fun _ => True) anyHalt (smartidCmdOpen W (some params)) := by
  subst hk
  intro c hc
  have hdevice : Triple smartidConnDevice c (fun dev c' => dev = c.dev ∧ c' = c) anyHalt :=
    Triple.of_run rfl ⟨rfl, rfl⟩
  apply hdevice.bind
  rintro dev c₁ ⟨rfl, rfl⟩
  cases hdev : c₁.dev with
  | some h => exact (evbufferAdd_untouched _).maintains c₁ hc
  | none =>
    dsimp only
    rw [hscan]
    dsimp only
    have hirda : Triple smartidConnIrda c₁ (fun _ c' => c' = c₁) anyHalt := Triple.of_run rfl rfl
    apply hirda.bind
    rintro irda c₁ rfl
    have halloc : Triple (smartidDevAlloc irda) c₁ (fun _ c' => c'.dev = none) anyHalt := by
      cases irda with
      | false => exact Triple.of_run rfl hdev
      | true => exact Triple.of_run rfl hdev
    apply halloc.bind
    rintro (_ | h) c₂ hdev₂
    · exact (evbufferAdd_untouched _).maintains c₂ (chunked_of_none hdev₂)
    apply (smartidDevConnect_prepared hdev₂ h addr lsap chunkSize).bind
    rintro (rv | _) c₃ hc₃
    · apply (connectError_untouched rv c₃).bind
      rintro _ c₄ ⟨-, hsame⟩
      have hdev₄ : c₄.dev = none := hsame.dev.trans hc₃.dev
      -- what is disposed was not the device of the connection
      have hdispose : Triple (smartidDevDispose (some h)) c₄ (fun _ c' => c'.dev = none)
          anyHalt := by
        cases hd : c₄.heap h with
        | none => exact Triple.of_run_error (run_bind_of_error (deref_dangling hd)) trivial
        | some d =>
          rw [Triple, smartidDevDispose, run_bind_of_ok (deref_run hd)]
          exact hdev₄
      exact hdispose.imp fun _ _ hdev₅ => ⟨trivial, chunked_of_none hdev₅⟩
    · have hset : Triple (smartidConnSetDevice (some h)) c₃
          (fun _ c' => Chunked (clampChunkSize chunkSize) c') anyHalt := by
        apply Triple.modify
        intro i d hi hd
        cases hi
        exact hc₃.csize d hd
      exact hset.bind fun _ c₄ hc₄ => (evbufferAdd_untouched _).maintains c₄ hc₄

end Daemon

/-! ### The client -/

/-- Without trouble the daemon waits for a line, and its device works with the chunk size `k`. -/
def LinkChunked (k : Nat) (l : Link S) : Prop :=
  l.trouble = true ∨ l.server.Waiting ∧ ∀ c, l.server.conn = some c → Chunked k c

/-- A line at which the daemon keeps its chunk size. -/
def ChunkLine (W : Irda S) (fuel k : Nat) (line : Text) : Prop :=
  (∀ c ∈ line, isEol c = false) ∧
    Maintains (Chunked k) (fun _ => True) anyHalt (smartidCmdProcess W fuel line)

section Client

variable {W : Irda S} {fuel k : Nat}

/-- A line whose command keeps the chunk size. -/
theorem chunkLine_of_dispatch {line : Text} {cmd : SmartiCmd} (hline : ∀ c ∈ line, isEol c = false)
    (hdispatch : dispatch line = some cmd)
    (hcmd : Maintains (Chunked k) (fun _ => True) anyHalt (cmd.func W fuel (commandParams line))) :
    ChunkLine W fuel k line := by
  rw [dispatch] at hdispatch
  split at hdispatch
  next => cases hdispatch
  next hname =>
    refine ⟨hline, ?_⟩
    rw [process_func hname hdispatch]
    exact hcmd

/-- A line that arrives is run. -/
theorem connRead_chunked {s : Server S} {line : Text} (hs : s.Waiting)
    (hchunk : ∀ c, s.conn = some c → Chunked k c) (hline : ChunkLine W fuel k line) :
    ∀ c, (connRead W fuel s (line ++ ['\n'])).1.conn = some c → Chunked k c := by
  obtain ⟨conn, input⟩ := s
  obtain rfl : input = [] := hs.input
  cases conn with
  | none => exact hchunk
  | some c =>
    have hread : evbufferReadln ([] ++ (line ++ ['\n'])) = some (line, []) :=
      evbufferReadln_line hline.1
    rw [connRead_of_readln hread]
    cases hrun : (smartidCmdProcess W fuel line).run c with
    | error e => exact fun _ h => (nomatch h)
    | ok r =>
      have hkept := ((hline.2 c (hchunk c rfl)).result hrun).2
      intro c' hc'
      cases hc'
      exact hkept

/-- It is a matter of the daemon only. -/
theorem linkChunked_daemonic : Daemonic (LinkChunked (S := S) k) := by
  rintro l l' hserver htrouble (h | h)
  · exact .inl (htrouble h)
  · right
    rw [hserver]
    exact h

/-- The client that writes such a line keeps the chunk size. -/
theorem ChunkLine.keeps {line : Text} (hline : ChunkLine W fuel k line) :
    WriteKeeps W fuel (LinkChunked k) line := by
  rintro l (htrouble | ⟨hwait, hchunk⟩)
  · exact (smarticSocketWrite_steady W fuel _ l htrouble).imp fun _ _ h => ⟨trivial, .inl h⟩
  cases hconn : l.connected with
  | false =>
    have hguard : !l.connected ∨ line ++ ['\n'] = [] := .inl (by rw [hconn]; rfl)
    exact Triple.of_run (if_pos hguard) ⟨trivial, .inr ⟨hwait, hchunk⟩⟩
  | true =>
    have hbody : ∀ c ∈ l.server.input ++ line, isEol c = false := by
      rw [hwait.input]
      exact hline.1
    obtain ⟨w, l₁, hrun, h⟩ := @smarticSocketWrite_spec S W fuel line l hconn hwait.flushed hbody
    refine Triple.of_run hrun ⟨trivial, ?_⟩
    rcases h with htrouble | ⟨ch, events, -, -, -, rfl⟩
    · exact .inl htrouble
    · exact .inr ⟨(connRead_line hwait hline.1).1, connRead_chunked hwait hchunk hline⟩

/-- **The line of OPEN carries the chunk size**, as the client has clamped it. -/
theorem openCommand_chunked (addr lsap : UInt32) {chunkSize : UInt8}
    (hk : clampChunkSize chunkSize.toNat = k) :
    ChunkLine W fuel k (openCommand addr lsap chunkSize) := by
  obtain ⟨params, hparams, hscan⟩ := openCommand_scanned addr lsap chunkSize
  refine chunkLine_of_dispatch (Call.openDevice addr lsap chunkSize).command_line
    (dispatch_openCommand addr lsap chunkSize) ?_
  show Maintains _ _ _ (smartidCmdOpen W (commandParams (openCommand addr lsap chunkSize)))
  rw [hparams]
  apply smartidCmdOpen_chunked hscan
  rw [clampChunk_toNat, clampChunkSize_idem, hk]

/-- All lines of opening a device keep the chunk size. -/
theorem openingLines_chunked {G : SmartiHost S} {chunkSize : Nat}
    (hk : clampChunkSize (chunkSize % 256) = k) :
    OpeningLines G (LinkChunked k) chunkSize where
  enum := (chunkLine_of_dispatch (isEol_of_all (by decide)) rfl (smartidCmdEnum_chunked _)).keeps
  openDevice addr lsap := by
    have hbyte : clampChunkSize (UInt8.ofNat chunkSize).toNat = k := by
      rw [UInt8.toNat_ofNat']
      exact hk
    exact (openCommand_chunked addr lsap hbyte).keeps
  model := (chunkLine_of_dispatch (isEol_of_all (by decide)) rfl (smartidCmdModel_chunked _)).keeps
  serial :=
    (chunkLine_of_dispatch (isEol_of_all (by decide)) rfl (smartidCmdSerial_chunked _)).keeps
  ticks := (chunkLine_of_dispatch (isEol_of_all (by decide)) rfl (smartidCmdTicks_chunked _)).keeps

end Client

/-! ### The network driver -/

/-- **The daemon works with the last eight bits** of the chunk size of the arguments, clamped. -/
theorem smartiDriverOpen_chunked {G : SmartiHost T} {k : Nat} (dev : Nat) (devpath : Text)
    {args : Text} {entries : Arglist} (hargs : arglistParse args = .ok entries)
    (hk : clampChunkSize (argUint entries "chunk_size".toList 8 % 256) = k) :
    DriverKeeps (LinkChunked k) (smartiDriverOpen G dev devpath args) := by
  refine smartiDriverOpen_keeps linkChunked_daemonic dev devpath args fun entries' hargs' => ?_
  rw [hargs] at hargs'
  cases hargs'
  exact openingLines_chunked hk

/-! ### The local driver -/

section Local

variable {H : SmartHost S}

/-- The callback of the discovery does not set it. -/
theorem csize_foldl_discover (ds : List IrdaDevice) (dev : SmartDev) :
    (ds.foldl smartDriverDiscoverCb dev).csize = dev.csize := by
  induction ds generalizing dev with
  | nil => rfl
  | cons d ds ih =>
    rw [List.foldl_cons, ih, smartDriverDiscoverCb]
    split
    · rfl
    · rfl

/-- The discovery does not change it. -/
theorem smartDriverDiscover_csize :
    Unseen SmartDev.csize (fun _ => True) (smartDriverDiscover H) := by
  have hgive : ∀ rc, Unseen SmartDev.csize (fun _ => True) (smartDriverGiveUp (S := S) rc) := by
    intro rc
    exact (smartDriverGiveUp_unseen csize_view rc).mono (fun _ _ => trivial) fun _ h => h
  apply (onSocket_unseen _ _).bind
  rintro (_ | ds) -
  · exact (setIrdaError_unseen csize_view).bind fun _ _ => hgive _
  apply setDev_then (csize_foldl_discover ds)
  split
  · exact (setDevError_unseen csize_view _ _).bind fun _ _ => hgive _
  · exact (smartDriverConnect_unseen csize_view).mono (fun _ _ => trivial) fun _ h => h

/-- Nor does the making of the socket. -/
theorem smartDriverSocket_csize (timeout : Int) :
    Unseen SmartDev.csize (fun _ => True) (smartDriverSocket H timeout) := by
  refine (call_unseen _).bind fun opened _ => ?_
  have halloc : Unseen (S := S) SmartDev.csize (fun _ => True) allocHandle := fun _ =>
    Triple.of_run rfl ⟨trivial, rfl⟩
  split
  · refine halloc.bind fun s _ => setDev_then (fun _ => rfl) ?_
    refine (onSocket_unseen _ _).bind fun set _ => ?_
    split
    · exact smartDriverDiscover_csize
    · refine (setIrdaError_unseen csize_view).bind fun _ _ => ?_
      exact (smartDriverGiveUp_unseen csize_view _).mono (fun _ _ => trivial) fun _ h => h
  · exact (setIrdaError_unseen csize_view).bind fun _ _ => Within.pure trivial

/-- **The local driver works with the chunk size of the arguments**, clamped. -/
theorem smartDriverOpen_csize (d : Desk (SmartProc S)) (dev : Nat) (devpath : Text) {args : Text}
    {entries : Arglist} (hargs : arglistParse args = .ok entries) :
    Triple (smartDriverOpen H dev devpath args) d (fun _ d' =>
      d'.state.dev.csize = clampChunkSize (argUint entries "chunk_size".toList 8)) anyHalt := by
  have huse : Triple (useHandle dev) d (fun _ _ => True) anyHalt := by
    rw [Triple]
    split <;> trivial
  refine huse.bind fun _ d₁ _ => ?_
  rw [hargs]
  have hset : Triple (Smart.setDev fun dev : SmartDev => { dev with
      lsap := argUint entries "lsap".toList 1
      csize := clampChunkSize (argUint entries "chunk_size".toList 8) }) d₁ (fun _ d' =>
        d'.state.dev.csize = clampChunkSize (argUint entries "chunk_size".toList 8)) anyHalt :=
    Triple.of_run rfl rfl
  refine hset.bind fun _ d₂ hd₂ => (smartDriverSocket_csize _ d₂).imp ?_
  rintro rc d₃ ⟨-, hsame⟩
  exact Eq.trans hsame hd₂

end Local

/-! ### Both drivers -/

/-- **The chunk size means the same in both drivers**, the number of the arguments made to lie
between 2 and 32, if and only if the number is below 256 or its last eight bits are at least
32.  The local driver keeps to it for every number. -/
theorem chunkSizes_agree_iff {H : SmartHost S} {G : SmartiHost T} {c : Nat}
    {args : Text} {entries : Arglist} (hargs : arglistParse args = .ok entries)
    (hc : arglistReadUint entries "chunk_size".toList = .ok c)
    {args' : Text} {entries' : Arglist} (hargs' : arglistParse args' = .ok entries')
    (hc' : arglistReadUint entries' "chunk_size".toList = .ok c)
    {dev : Nat} {devpath : Text} {rc : Int} {d p : Desk (SmartProc S)}
    (hsmart : (smartDriverOpen H dev devpath args).run d = .ok (rc, p))
    {dev' : Nat} {host : Text} {rc' : Int} {e q : Desk (SmartiProc T)}
    {w : T} {schedule : List NetEvent} {junk : Text}
    (hlink : e.state.link = Link.dialed w schedule junk)
    (hsmarti : (smartiDriverOpen G dev' host args').run e = .ok (rc', q))
    (hcalm : q.state.link.trouble = false) {conn : Conn T} {h : Nat} {device : SmartDevice}
    (hconn : q.state.link.server.conn = some conn) (hdev : conn.dev = some h)
    (hdevice : conn.heap h = some device) :
    p.state.dev.csize = min 32 (max 2 c) ∧ device.csize = min 32 (max 2 c) ↔
      c < 256 ∨ 32 ≤ c % 256 := by
  have harg : argUint entries "chunk_size".toList 8 = c := by
    rw [argUint, hc]
    rfl
  have harg' : argUint entries' "chunk_size".toList 8 = c := by
    rw [argUint, hc']
    rfl
  have hlocal : p.state.dev.csize = clampChunkSize c := by
    rw [← harg]
    exact (smartDriverOpen_csize d dev devpath hargs).result hsmart
  -- the daemon starts without a device
  have hstart : LinkChunked (clampChunkSize (c % 256)) e.state.link := by
    rw [hlink]
    refine .inr ⟨Server.start_waiting w, ?_⟩
    intro c' hc'
    cases hc'
    exact chunked_of_none rfl
  have hkept := (smartiDriverOpen_chunked dev' host hargs' (by rw [harg']) e hstart).result hsmarti
  have hdaemon : device.csize = clampChunkSize (c % 256) := by
    rcases hkept.2 with htrouble | ⟨-, hchunk⟩
    · rw [hcalm] at htrouble
      cases htrouble
    · exact hchunk conn hconn h device hdev hdevice
  rw [hlocal, hdaemon, ← clampChunkSize_eq, ← clampChunkSize_mod_iff]
  exact and_iff_right rfl

/-! ### Runs on two numbers -/

/-- A device that answers every command with ones. -/
def smartZHost : SmartHost Unit where
  discover w := (some [⟨1, "Uwatec Smart Z".toList⟩], w)
  connectLsap w _ _ := (.done (), w)
  write w bytes := (.done bytes.length, w)
  read w n := (.done (List.replicate n 1), w)
  time w := (0, w)
  junk _ _ := 0
  foreignFree := false
  socketOpen w := (true, w)
  setTimeout w _ := (true, w)
  errcode _ := 0

/-- The same device behind a daemon. -/
def smartZDaemon : SmartiHost Unit where
  irda := smartZHost.toIrda
  fuel := 0
  dial _ _ := none
  clock := 0
  bsize := 0

/-- The device structures have been created under the handle 0. -/
def createdLocal : Desk (SmartProc Unit) :=
  match (smartDriverCreate (S := Unit)).run localStart with
  | .ok (_, d) => d
  | .error _ => localStart

/-- A device structure of the network driver. -/
def createdNetwork : Desk (SmartiProc Unit) :=
  match (smartiDriverCreate (S := Unit)).run networkStart with
  | .ok (_, d) => d
  | .error _ => networkStart

/-- The return values, the two chunk sizes, and whether there was trouble. -/
structure ChunkRun where
  rc : Int
  csize : Nat
  rc' : Int
  csize' : Nat
  trouble : Bool
  deriving DecidableEq

/-- Both opens, with the same arguments. -/
def chunkRun (args : Text) : Option ChunkRun :=
  match (smartDriverOpen smartZHost 0 [] args).run createdLocal,
      (smartiDriverOpen smartZDaemon 0 [] args).run createdNetwork with
  | .ok (rc, p), .ok (rc', q) => do
    let conn ← q.state.link.server.conn
    let h ← conn.dev
    let device ← conn.heap h
    return ⟨rc, p.state.dev.csize, rc', device.csize, q.state.link.trouble⟩
  | _, _ => none

/-- What such a run consists of. -/
theorem exists_chunkRun {args : Text} {r : ChunkRun} (hrun : chunkRun args = some r) :
    ∃ p q conn h device, (smartDriverOpen smartZHost 0 [] args).run createdLocal = .ok (r.rc, p) ∧
      (smartiDriverOpen smartZDaemon 0 [] args).run createdNetwork = .ok (r.rc', q) ∧
      q.state.link.server.conn = some conn ∧ conn.dev = some h ∧ conn.heap h = some device ∧
      p.state.dev.csize = r.csize ∧ device.csize = r.csize' ∧ q.state.link.trouble = r.trouble := by
  rw [chunkRun] at hrun
  split at hrun
  next rc p rc' q hp hq =>
    obtain ⟨conn, hconn, hrun⟩ := Option.bind_eq_some_iff.mp hrun
    obtain ⟨h, hdev, hrun⟩ := Option.bind_eq_some_iff.mp hrun
    obtain ⟨device, hdevice, hrun⟩ := Option.bind_eq_some_iff.mp hrun
    cases hrun
    exact ⟨p, q, conn, h, device, hp, hq, hconn, hdev, hdevice, rfl, rfl, rfl⟩
  next => cases hrun

/-- The chunk size 16. -/
theorem chunkSizes_agree_iff_sixteen : ∃ p q conn h device,
    (smartDriverOpen smartZHost 0 [] "chunk_size=16".toList).run createdLocal = .ok (0, p) ∧
      (smartiDriverOpen smartZDaemon 0 [] "chunk_size=16".toList).run createdNetwork = .ok (0, q) ∧
      q.state.link.server.conn = some conn ∧ conn.dev = some h ∧ conn.heap h = some device ∧
      (p.state.dev.csize = min 32 (max 2 16) ∧ device.csize = min 32 (max 2 16) ↔
        16 < 256 ∨ 32 ≤ 16 % 256) := by
  have hrun : chunkRun "chunk_size=16".toList = some ⟨0, 16, 0, 16, false⟩ := by decide +kernel
  obtain ⟨p, q, conn, h, device, hp, hq, hconn, hdev, hdevice, -, -, hcalm⟩ := exists_chunkRun hrun
  have hargs : arglistParse "chunk_size=16".toList =
      .ok [("chunk_size".toList, "16".toList)] := by decide +kernel
  have hc : arglistReadUint [("chunk_size".toList, "16".toList)] "chunk_size".toList = .ok 16 := by
    decide +kernel
  exact ⟨p, q, conn, h, device, hp, hq, hconn, hdev, hdevice,
    chunkSizes_agree_iff hargs hc hargs hc hp rfl hq hcalm hconn hdev hdevice⟩

/-- The chunk size 256 is 32 for the local driver, and 2 for the daemon. -/
theorem not_chunkSizes_agree : ∃ p q conn h device,
    arglistParse "chunk_size=256".toList = .ok [("chunk_size".toList, "256".toList)] ∧
      arglistReadUint [("chunk_size".toList, "256".toList)] "chunk_size".toList = .ok 256 ∧
      (smartDriverOpen smartZHost 0 [] "chunk_size=256".toList).run createdLocal = .ok (0, p) ∧
      (smartiDriverOpen smartZDaemon 0 [] "chunk_size=256".toList).run createdNetwork = .ok (0, q) ∧
      q.state.link.trouble = false ∧ q.state.link.server.conn = some conn ∧
      conn.dev = some h ∧ conn.heap h = some device ∧
      p.state.dev.csize = min 32 (max 2 256) ∧ ¬device.csize = min 32 (max 2 256) := by
  have hrun : chunkRun "chunk_size=256".toList = some ⟨0, 32, 0, 2, false⟩ := by decide +kernel
  obtain ⟨p, q, conn, h, device, hp, hq, hconn, hdev, hdevice, hcsize, hcsize', hcalm⟩ :=
    exists_chunkRun hrun
  refine ⟨p, q, conn, h, device, by decide +kernel, by decide +kernel, hp, hq, hcalm, hconn, hdev,
    hdevice, hcsize, ?_⟩
  rw [hcsize']
  decide

end BenthosDc
