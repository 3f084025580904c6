/-
BenthosDc/SmartiCalm.lean

Calls while the network gives no trouble.

The specifications of the calls allow for trouble at any moment.  Here there is none in the
schedule: bytes arrive, looks find nothing, writes take a part of the data.  A read can then
fail for want of a reply only, and a call whose reply is known ends with its result.
-/
import BenthosDc.SmartiRuns

namespace BenthosDc

open CString Delivery Hoare Lines Loop

variable {S : Type} {W : Irda S} {fuel : Nat} {cmd : Text} {l l' : Link S}

/-! ### A calm schedule

Calm is a property of the events to come.  Each read and write uses some of them up and leaves
the link calm.
-/

/-- An event that is no trouble. -/
def NetEvent.Gentle : NetEvent → Prop
  | .arrive _ => True
  | .again => True
  | .accept n => n ≠ 0
  | _ => False

/-- There has been no trouble, and there will be none. -/
structure Calm (l : Link S) : Prop where
  trouble : l.trouble = false
  schedule : ∀ e ∈ l.schedule, e.Gentle

/-- A character that has been sent is received. -/
theorem awaitChar_gentle {events : List NetEvent} (hevents : ∀ e ∈ events, e.Gentle)
    {ch : Channel Char} (hch : ch.pending ≠ []) : ∃ c, (awaitChar events ch).1 = .char c := by
  induction events generalizing ch with
  | nil =>
    rw [awaitChar]
    cases hrec : ch.settle.receive with
    | none => exact absurd ((receive_settle_eq_none_iff ch).mp hrec) hch
    | some r => exact ⟨r.1, rfl⟩
  | cons e events ih =>
    rw [List.forall_mem_cons] at hevents
    obtain ⟨hgentle, hevents⟩ := hevents
    -- only an arrival can bring the character
    cases e with
    | arrive n =>
      rw [awaitChar]
      cases hrec : (ch.arrive n).receive with
      | none =>
        apply ih hevents
        rwa [pending_arrive]
      | some r => exact ⟨r.1, rfl⟩
    | again => exact ih hevents hch
    | accept n => exact ih hevents hch
    | timeout => exact hgentle.elim
    | selectFails => exact hgentle.elim
    | fails errno => exact hgentle.elim
    | endOfFile => exact hgentle.elim

/-- A read gives the next character that has been sent. -/
theorem readChar_calm (hcalm : Calm l) (hpend : l.channel.pending ≠ []) :
    ∃ c l', readChar l = (.char c, l') ∧ l.channel.pending = c :: l'.channel.pending ∧ Calm l' := by
  rcases readChar_cases l with ⟨c, ch, events, h, hnext, hsuf⟩ | ⟨hne, -⟩
  · exact ⟨c, _, h, hnext, hcalm.trouble, fun e he => hcalm.schedule e (hsuf.subset he)⟩
  · obtain ⟨c, hc⟩ := awaitChar_gentle hcalm.schedule hpend
    rcases hawait : awaitChar l.schedule l.channel with ⟨r, ch, events⟩
    rw [hawait] at hc
    have hread : (readChar l).1 = .char c := by
      rw [readChar, hawait]
      dsimp only at hc
      rw [hc]
    exact absurd hread (hne c)

/-- **A line that has been sent is read.** -/
theorem smarticSocketReadln_calm {len : Nat} (hlen : len ≠ 0) (hl : l.connected = true)
    (hcalm : Calm l) (hpend : '\n' ∈ l.channel.pending) :
    ∃ line ch events, '\n' ∉ line ∧ l.channel.pending = line ++ '\n' :: ch.pending ∧
      Calm (l.afterLine line ch events) ∧
      (smarticSocketReadln len).run l = .ok (lineResult len line, l.afterLine line ch events) := by
  have hguard : ¬(!l.connected ∨ len = 0) := by simp [hl, hlen]
  obtain ⟨⟨r, l'⟩, hiter⟩ := readln_stops len l
  have hrun : (smarticSocketReadln len).run l = .ok (r, l') := by
    show smarticSocketReadln len l = _
    rw [smarticSocketReadln, if_neg hguard, hiter]
  -- as long as the end of the line is to come, the next character is
  have hcalm' : Calm l' := by
    refine (iterate_stop_returns hiter).invariant
      (I := fun s => Calm s.1 ∧ '\n' ∈ s.1.channel.pending) (Q := fun r => Calm r.2) ?_ ?_
      ⟨hcalm, hpend⟩
    · rintro ⟨l₁, buf⟩ s' ⟨hcalm₁, hmem⟩ hnext
      obtain ⟨c, l₂, hread, hc, hcalm₂⟩ := readChar_calm hcalm₁ (List.ne_nil_of_mem hmem)
      rw [readlnPass, hread] at hnext
      dsimp only at hnext
      split at hnext
      · cases hnext
      · next hne =>
        cases hnext
        rw [hc, List.mem_cons] at hmem
        exact ⟨hcalm₂, hmem.resolve_left (Ne.symm hne)⟩
    · rintro ⟨l₁, buf⟩ r ⟨hcalm₁, hmem⟩ hstop
      obtain ⟨c, l₂, hread, -, hcalm₂⟩ := readChar_calm hcalm₁ (List.ne_nil_of_mem hmem)
      rw [readlnPass, hread] at hstop
      dsimp only at hstop
      split at hstop
      · cases hstop
        exact hcalm₂
      · cases hstop
  obtain ⟨r₁, l₁, hrun₁, h⟩ := smarticSocketReadln_spec hlen l hl
  cases hrun.symm.trans hrun₁
  rcases h with htrouble | ⟨line, ch, events, hline, hnext, -, rfl, rfl⟩
  · rw [hcalm'.trouble] at htrouble
    cases htrouble
  · exact ⟨line, ch, events, hline, hnext, hcalm', hrun⟩

/-- The whole text is written. -/
theorem writeAll_calm {events : List NetEvent} (hevents : ∀ e ∈ events, e.Gentle)
    (hl : l.trouble = false) (buf : Text) : (writeAll W fuel events l buf).2.trouble = false := by
  induction events generalizing l buf with
  | nil =>
    rw [writeAll]
    split
    · exact hl
    · exact hl
  | cons e events ih =>
    rw [List.forall_mem_cons] at hevents
    obtain ⟨hgentle, hevents⟩ := hevents
    rw [writeAll.eq_def]
    split
    · exact hl
    cases e with
    | arrive n => exact ih (l := { l with channel := l.channel.arrive n }) hevents hl buf
    | again => exact ih hevents hl buf
    | accept n =>
      dsimp only
      rw [if_neg (show n ≠ 0 from hgentle)]
      exact ih (l := deliver W fuel l (buf.take n)) hevents hl _
    | timeout => exact hgentle.elim
    | selectFails => exact hgentle.elim
    | fails errno => exact hgentle.elim
    | endOfFile => exact hgentle.elim

/-- **A line that is written reaches the daemon.** -/
theorem smarticSocketWrite_calm (hcmd : ∀ c ∈ cmd, isEol c = false) (hl : Synced l)
    (hcalm : Calm l) :
    ∃ ch events, Calm (l.afterWrite W fuel (cmd ++ ['\n']) ch events) ∧
      ch.pending = replyTo W fuel l.server cmd ∧
      (smarticSocketWrite W fuel (cmd ++ ['\n'])).run l =
        .ok (⟨0, false, 0⟩, l.afterWrite W fuel (cmd ++ ['\n']) ch events) := by
  have hbody : ∀ c ∈ l.server.input ++ cmd, isEol c = false := by
    rw [hl.server.input]
    exact hcmd
  have hguard : ¬(!l.connected ∨ cmd ++ ['\n'] = []) := by simp [hl.connected]
  have hrun : (smarticSocketWrite W fuel (cmd ++ ['\n'])).run l =
      .ok (writeAll W fuel l.schedule l (cmd ++ ['\n'])) := if_neg hguard
  rcases @writeAll_spec S W fuel cmd l.schedule l hl.server.flushed hbody with
    htrouble | ⟨ch, events, hsuf, hpend, hwrite⟩
  · rw [writeAll_calm hcalm.schedule hcalm.trouble] at htrouble
    cases htrouble
  · rw [hl.pending, List.nil_append] at hpend
    rw [hwrite] at hrun
    exact ⟨ch, events, ⟨hcalm.trouble, fun e he => hcalm.schedule e (hsuf.subset he)⟩, hpend, hrun⟩

/-! ### Requests

The line has gone out, and the daemon has answered it.
-/

/-- An error of the client is no trouble of the network. -/
theorem Calm.idle (hcalm : Calm l) (code : Int) (msg : ErrorText) :
    Calm { l with errcode := code, errmsg := msg } := ⟨hcalm.trouble, hcalm.schedule⟩

/-- **A request whose reply is known** reads the first line of it. -/
theorem smarticRequest_calm (hcmd : ∀ c ∈ cmd, isEol c = false) (hl : Synced l) (hcalm : Calm l)
    {line rest : Text} (hline : '\n' ∉ line)
    (hreply : replyTo W fuel l.server cmd = line ++ '\n' :: rest) :
    Triple (smarticRequest W fuel cmd) l
      (fun r l' => r = response line ∧ Calm l' ∧ Exchanged W fuel cmd l l' ∧
        l'.channel.pending = rest) never := by
  have hend : Triple (smarticRequest W fuel cmd) l (fun _ l' => Calm l') never := by
    obtain ⟨ch, events, hcalm₁, hpend, hwrite⟩ :=
      @smarticSocketWrite_calm S W fuel cmd l hcmd hl hcalm
    rw [Triple, smarticRequest, run_bind_of_ok hwrite, firstResponse, if_neg (fun h => h rfl)]
    have hconn : (l.afterWrite W fuel (cmd ++ ['\n']) ch events).connected = true := hl.connected
    -- the reply is in flight, so that a line of it can be read
    have hmem : '\n' ∈ (l.afterWrite W fuel (cmd ++ ['\n']) ch events).channel.pending := by
      show '\n' ∈ ch.pending
      rw [hpend, hreply]
      exact List.mem_append_right _ List.mem_cons_self
    generalize l.afterWrite W fuel (cmd ++ ['\n']) ch events = l₁ at hcalm₁ hconn hmem
    obtain ⟨line₁, ch₁, events₁, -, -, hcalm₂, hread⟩ :=
      smarticSocketReadln_calm (show 1024 ≠ 0 by decide) hconn hcalm₁ hmem
    obtain ⟨code, msg, hcheck⟩ :=
      checkResponse_line l₁.junk line₁ (l₁.afterLine line₁ ch₁ events₁)
    have hresponse : (readResponse false l₁.junk).run l₁ = .ok (parsed line₁,
        { l₁.afterLine line₁ ch₁ events₁ with errcode := code, errmsg := msg }) :=
      run_bind_eq_ok.mpr ⟨_, _, hread, hcheck⟩
    have hline₁ : (unsetLine : Client S Text).run l₁ = .ok (l₁.junk, l₁) := rfl
    rw [run_bind_of_ok hline₁, run_bind_of_ok hresponse]
    cases parsed line₁ with
    | none => exact hcalm₂.idle code msg
    | some r => exact hcalm₂.idle code msg
  apply ((smarticRequest_spec hcmd hl).and hend).imp
  rintro r l' ⟨htrouble | ⟨hex, -, line', hline', hreply', rfl⟩, hcalm'⟩
  · rw [hcalm'.trouble] at htrouble
    cases htrouble
  · obtain ⟨rfl, hrest⟩ := append_cons_inj hline hline' (hreply.symm.trans hreply')
    exact ⟨rfl, hcalm', hex, hrest.symm⟩

/-! ### Calls

A call has been answered, and its result is computed from the reply.
-/

/-- The call is over: the client has read all of its reply, and nothing stands in the way
of the next call. -/
structure Settled (W : Irda S) (fuel : Nat) (cmd : Text) (l l' : Link S) : Prop where
  synced : Synced l'
  calm : Calm l'
  server : l'.server = (connRead W fuel l.server (cmd ++ ['\n'])).1

/-- What is left to show of a call behind its exchange. -/
theorem Settled.of_exchanged (hcmd : ∀ c ∈ cmd, isEol c = false) (hl : Synced l)
    (hex : Exchanged W fuel cmd l l') (hcalm : Calm l') (hpend : l'.channel.pending = []) :
    Settled W fuel cmd l l' := ⟨hex.synced hl hcmd hpend, hcalm, hex.server⟩

/-- An error is stored behind the call. -/
theorem Settled.idle (h : Settled W fuel cmd l l') (code : Int) (msg : ErrorText) :
    Settled W fuel cmd l { l' with errcode := code, errmsg := msg } where
  synced := ⟨h.synced.connected, h.synced.server, h.synced.pending, h.synced.consumed⟩
  calm := h.calm.idle code msg
  server := h.server

/-- The first line of a reply of one line is all of it. -/
theorem smarticRequest_status (hcmd : ∀ c ∈ cmd, isEol c = false) (hl : Synced l) (hcalm : Calm l)
    {code : Int} {msg : Text} (hmsg : '\n' ∉ msg)
    (hreply : replyTo W fuel l.server cmd = responseLine code msg) :
    Triple (smarticRequest W fuel cmd) l
      (fun r l' => r = response (decimalInt code ++ ' ' :: msg) ∧ Settled W fuel cmd l l')
      never := by
  rw [responseLine_eq] at hreply
  apply (smarticRequest_calm hcmd hl hcalm (not_mem_responseLine hmsg code) hreply).imp
  rintro r l' ⟨rfl, hcalm', hex, hpend⟩
  exact ⟨rfl, Settled.of_exchanged hcmd hl hex hcalm' hpend⟩

/-- The code of the reply is the result. -/
theorem statusRequest_calm (hcmd : ∀ c ∈ cmd, isEol c = false) (hl : Synced l) (hcalm : Calm l)
    {msg : Text} (hmsg : '\n' ∉ msg)
    (hreply : replyTo W fuel l.server cmd = responseLine smartiStatusSuccess msg) :
    Triple (statusRequest W fuel cmd) l (fun rc l' => rc = 0 ∧ Settled W fuel cmd l l') never := by
  apply (smarticRequest_status hcmd hl hcalm hmsg hreply).bind
  rintro _ l' ⟨rfl, hsettled⟩
  have hcode : StatusCode smartiStatusSuccess := by decide
  obtain ⟨rLine, msg', hparsed⟩ := parsed_status hcode msg
  rw [response, hparsed]
  dsimp only
  rw [if_neg (fun h => h rfl)]
  exact ⟨rfl, hsettled⟩

/-- A reply with a number, as the client reads it. -/
theorem response_info {text : Text} {n : Nat} (hplain : text.all fun c => c != '\n' && c != '\x00')
    (hshort : text.length ≤ 1000) (hn : n < 2 ^ 32) :
    '\n' ∉ text ++ ':' :: ' ' :: decimal n ∧
      (∃ rLine, response (decimalInt smartiStatusInfo ++ ' ' :: (text ++ ':' :: ' ' :: decimal n)) =
        .ok (rLine, smartiStatusInfo, text ++ ':' :: ' ' :: decimal n)) ∧
      smarticParseDevinfo (text ++ ':' :: ' ' :: decimal n) = some (decimal n) := by
  have htext : ∀ c ∈ text, c ≠ '\n' ∧ c ≠ '\x00' := by
    intro c hc
    simpa using List.all_eq_true.mp hplain c hc
  have hdigits : (decimal n).length ≤ 10 := length_decimal_le (by omega) (by decide)
  have hzero : '\x00' ∉ decimal n := not_mem_decimal (by decide) n
  have hmsg : '\n' ∉ text ++ ':' :: ' ' :: decimal n := by
    simp only [List.mem_append, List.mem_cons, not_or]
    exact ⟨fun h => (htext _ h).1 rfl, by decide, by decide, not_mem_decimal (by decide) n⟩
  have hnul : '\x00' ∉ text ++ ':' :: ' ' :: decimal n := by
    simp only [List.mem_append, List.mem_cons, not_or]
    exact ⟨fun h => (htext _ h).2 rfl, by decide, by decide, hzero⟩
  -- the whole message fits into the buffer
  have hlen : (text ++ ':' :: ' ' :: decimal n).length ≤ 1019 := by
    simp only [List.length_append, List.length_cons]
    omega
  refine ⟨hmsg, ?_, ?_⟩
  · rw [response, parsed, smarticParseResponse_line (by decide) (by decide),
      List.take_of_length_le hlen, cstr_eq hnul]
    exact ⟨_, rfl⟩
  · exact smarticParseDevinfo_eq (fun h => (htext _ h).2 rfl) hzero (not_mem_decimal (by decide) n)

/-- The number behind the colon is returned. -/
theorem infoRequest_calm (hcmd : ∀ c ∈ cmd, isEol c = false) (hl : Synced l) (hcalm : Calm l)
    {text : Text} {n width : Nat} (hplain : text.all fun c => c != '\n' && c != '\x00')
    (hshort : text.length ≤ 1000) (hn : n < 2 ^ width) (hwidth : width ≤ 32)
    (hreply : replyTo W fuel l.server cmd =
      responseLine smartiStatusInfo (text ++ ':' :: ' ' :: decimal n)) :
    Triple (infoRequest W fuel cmd width) l
      (fun r l' => r = .ok n ∧ Settled W fuel cmd l l') never := by
  have hn32 : n < 2 ^ 32 := hn.trans_le (Nat.pow_le_pow_right (by decide) hwidth)
  obtain ⟨hmsg, ⟨rLine, hresponse⟩, hinfo⟩ := response_info hplain hshort hn32
  apply (smarticRequest_status hcmd hl hcalm hmsg hreply).bind
  rintro _ l' ⟨rfl, hsettled⟩
  rw [hresponse]
  dsimp only
  rw [if_neg (fun h => h rfl), hinfo]
  dsimp only
  rw [strtoulValue_decimal (by omega), Nat.mod_eq_of_lt hn]
  exact ⟨rfl, hsettled⟩

/-! ### XFER

The reply has two lines, and the second one is as long as the first one says.
-/

/-- A reply that is an error is one for the client. -/
theorem smartiClientXfer_status (hl : Synced l) (hcalm : Calm l) {code : Int} {msg : Text}
    (hcode : StatusCode code) (hmsg : '\n' ∉ msg)
    (hreply : replyTo W fuel l.server "XFER".toList = responseLine code msg) :
    Triple (smartiClientXfer W fuel) l
      (fun r l' => r = .error (-1) ∧ Settled W fuel "XFER".toList l l') never := by
  have hcmd : ∀ c ∈ "XFER".toList, isEol c = false := isEol_of_all (by decide)
  apply (smarticRequest_status hcmd hl hcalm hmsg hreply).bind
  rintro _ l' ⟨rfl, hsettled⟩
  obtain ⟨rLine, msg', hparsed⟩ := parsed_status hcode msg
  rw [response, hparsed]
  dsimp only
  rw [readTransfer, if_pos hcode.2.2]
  exact ⟨rfl, hsettled.idle code (.text msg')⟩

/-- The client keeps an encoded line as it is. -/
theorem rdropWhile_padTriples (data : List UInt8) :
    ((padTriples data).rdropWhile fun c => !isB64 c) = padTriples data := by
  have htable : encodingTable.all isB64 = true := by decide
  rw [List.rdropWhile_eq_self_iff]
  intro hne
  have hlast : isB64 ((padTriples data).getLast hne) = true := by
    rcases mem_padTriples (List.getLast_mem hne) with h | h
    · rw [h]
      decide
    · exact List.all_eq_true.mp htable _ h
  rw [hlast]
  exact Bool.false_ne_true

/-- The line of data is decoded. -/
theorem checkData_padTriples {data : List UInt8} (hne : data ≠ [])
    (hlen : data.length ≤ maxEncodable) :
    checkData (S := S) (padTriples data).length
      (lineResult ((padTriples data).length * 2) (padTriples data)) = pure (.ok (some data)) := by
  have hpos := length_padTriples_pos hne
  have htake : (padTriples data).take ((padTriples data).length * 2 - 1) = padTriples data :=
    List.take_of_length_le (by omega)
  obtain ⟨c, text, htext⟩ : ∃ c text, padTriples data = c :: text :=
    List.exists_cons_of_ne_nil (List.ne_nil_of_length_pos hpos)
  have hret : ¬((padTriples data).length : Int) < 0 := by omega
  rw [lineResult, htake, checkData, if_neg hret, if_neg Bool.false_ne_true, Option.getD_some,
    rdropWhile_padTriples, htext]
  dsimp only
  rw [← htext, if_neg (fun h => h rfl), base64Decode_padTriples hne hlen]

/-- **XFER returns the data that the daemon has sent.** -/
theorem smartiClientXfer_data (hl : Synced l) (hcalm : Calm l) {data : List UInt8}
    (hne : data ≠ []) (hlen : data.length ≤ maxEncodable)
    (hreply : replyTo W fuel l.server "XFER".toList =
      dataLine data ++ '\n' :: (padTriples data ++ ['\n'])) :
    Triple (smartiClientXfer W fuel) l
      (fun r l' => r = .ok (some data) ∧ Settled W fuel "XFER".toList l l') never := by
  have hcmd : ∀ c ∈ "XFER".toList, isEol c = false := isEol_of_all (by decide)
  apply (smarticRequest_calm hcmd hl hcalm (newline_not_mem_dataLine data) hreply).bind
  rintro _ l₁ ⟨rfl, hcalm₁, hex, hpend⟩
  have hpos := length_padTriples_pos hne
  have hmem : '\n' ∈ l₁.channel.pending := by
    rw [hpend]
    exact List.mem_append_right _ List.mem_cons_self
  obtain ⟨line, ch, events, hline, hnext, hcalm₂, hread⟩ := smarticSocketReadln_calm
    (show (padTriples data).length * 2 ≠ 0 by omega) (hex.connected.trans hl.connected) hcalm₁ hmem
  obtain ⟨rfl, hch⟩ :=
    append_cons_inj (newline_not_mem_padTriples data) hline (hpend.symm.trans hnext)
  rw [readTransfer_dataLine hlen, Triple, run_bind_of_ok hread, checkData_padTriples hne hlen]
  exact ⟨rfl, Settled.of_exchanged hcmd hl (hex.reads (Link.reads_afterLine hnext)) hcalm₂ hch.symm⟩

end BenthosDc
