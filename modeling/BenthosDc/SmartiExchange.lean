/-
BenthosDc/SmartiExchange.lean

What the daemon sends back for one line, and how the client reads it.

A call that reads one line reads the whole reply, because outside of ENUM, HELP and
XFER a reply is one line.

The two sides are brought together in `Synced`: nothing is in flight in either direction, so
that the next line of the client is answered by the next reply of the daemon.
-/
import BenthosDc.SmartiClient
import BenthosDc.SmartidSession

namespace BenthosDc

open CString Delivery Hoare Lines SmartiCmd

variable {S α : Type} {W : Irda S} {fuel : Nat}

/-! ### The daemon's side

A server that waits for a line processes it whole, as all of it arrives at once or in pieces
that the event buffer collects.
-/

/-- The daemon waits for a line. -/
structure Server.Waiting (s : Server S) : Prop where
  flushed : s.Flushed
  input : s.input = []
  wellFormed : ∀ c, s.conn = some c → WellFormed c

/-- So does a new one. -/
theorem Server.start_waiting (w : S) : (Server.start w).Waiting where
  flushed c h := by
    cases h
    rfl
  input := rfl
  wellFormed c h := by
    cases h
    exact wellFormed_fresh w

/-- What can come back for a line: nothing, a greeting, or the reply of a command. -/
def ReplyLine (line reply : Text) : Prop :=
  reply = [] ∨ (commandName line = [] ∧ StatusReply reply) ∨
    ∃ cmd, dispatch line = some cmd ∧ ReplyTo cmd reply

/-- A command appends one of its replies to the output. -/
theorem process_reply {c : Conn S} (hc : WellFormed c) (line : CommandLine) :
    Triple (smartidCmdProcess W fuel line.1) c
      (fun _ c' => WellFormed c' ∧ ∃ reply, c'.out = c.out ++ reply ∧ ReplyLine line.1 reply)
      fun _ => True := by
  have hparams := newline_not_mem_commandParams line
  obtain ⟨line, hline⟩ := line
  by_cases hname : commandName line = []
  · rw [process_ready hname]
    apply (sendReady_sends.replies c hc rfl).imp
    rintro _ c' ⟨hc', reply, hout, hreply⟩
    exact ⟨hc', reply, hout, .inr (.inl ⟨hname, hreply⟩)⟩
  cases hcmd : lookupCommand ((commandName line).map Char.toLower) with
  | none =>
    rw [process_unknown hname hcmd]
    exact Triple.pure ⟨hc, [], (List.append_nil _).symm, .inl rfl⟩
  | some cmd =>
    -- a command replies as its function does
    rw [process_func hname hcmd]
    apply (func_replies hparams cmd (fun _ => ⟨trivial, trivial, trivial⟩) fuel c hc rfl).imp
    rintro _ c' ⟨hc', reply, hout, hreply⟩
    have hdispatch : dispatch line = some cmd := by rw [dispatch, if_neg hname, hcmd]
    exact ⟨hc', reply, hout, .inr (.inr ⟨cmd, hdispatch, hreply⟩)⟩

/-- **One line in, one reply out**, and the daemon waits again. -/
theorem connRead_line {s : Server S} (hs : s.Waiting) {line : Text}
    (hline : ∀ c ∈ line, isEol c = false) :
    (connRead W fuel s (line ++ ['\n'])).1.Waiting ∧
      ReplyLine line (connRead W fuel s (line ++ ['\n'])).2 := by
  obtain ⟨conn, input⟩ := s
  obtain rfl : input = [] := hs.input
  cases conn with
  | none => exact ⟨hs, .inl rfl⟩
  | some c =>
    have hout : c.out = [] := hs.flushed c rfl
    have hcommand : ∀ c ∈ line, c ≠ '\n' ∧ c ≠ '\r' := by
      intro c hc
      have heol := hline c hc
      rw [isEol, decide_eq_false_iff_not, not_or] at heol
      exact heol
    have hprocess : Triple (smartidCmdProcess W fuel line) c (fun _ c' => WellFormed c' ∧
        ∃ reply, c'.out = c.out ++ reply ∧ ReplyLine line reply) fun _ => True :=
      process_reply (hs.wellFormed c rfl) ⟨line, hcommand⟩
    -- the line is complete, so that it is processed at once
    have hreadln : evbufferReadln ([] ++ (line ++ ['\n'])) = some (line, []) :=
      evbufferReadln_line hline
    rw [connRead_of_readln hreadln]
    cases hrun : (smartidCmdProcess W fuel line).run c with
    | error e => exact ⟨⟨by rintro _ ⟨⟩, rfl, by rintro _ ⟨⟩⟩, .inl rfl⟩
    | ok r =>
      obtain ⟨u, c₁⟩ := r
      obtain ⟨hc', reply, hreply, hkind⟩ := hprocess.result hrun
      rw [hout, List.nil_append] at hreply
      refine ⟨⟨?_, rfl, ?_⟩, ?_⟩
      · rintro c' hc'
        cases hc'
        rfl
      · rintro c' hc''
        cases hc''
        exact ⟨hc'.sound, hc'.live, hc'.heap, hc'.fresh⟩
      · show ReplyLine line c₁.out
        rw [hreply]
        exact hkind

/-! ### Replies in lines

A reply is text with line ends.  Reading it line by line asks for no end of line inside the
messages.
-/

/-- A response is a line, its terminator and what follows. -/
theorem responseLine_append (code : Int) (msg rest : Text) :
    responseLine code msg ++ rest = (decimalInt code ++ ' ' :: msg) ++ '\n' :: rest := by
  rw [responseLine]
  simp only [List.append_assoc, List.cons_append, List.nil_append]

/-- A line without its end. -/
theorem responseLine_eq (code : Int) (msg : Text) :
    responseLine code msg = (decimalInt code ++ ' ' :: msg) ++ ['\n'] := by
  rw [← List.append_nil (responseLine code msg), responseLine_append]

/-- The code and the message have no line end in them. -/
theorem not_mem_responseLine {msg : Text} (hmsg : '\n' ∉ msg) (code : Int) :
    '\n' ∉ decimalInt code ++ ' ' :: msg := by
  simp only [List.mem_append, List.mem_cons, not_or]
  exact ⟨not_mem_decimalInt (by decide) (by decide) code, by decide, hmsg⟩

/-- A response ends a line. -/
theorem responseLine_terminated (code : Int) (msg : Text) :
    Terminated '\n' (responseLine code msg) := by
  rw [responseLine_eq]
  exact terminated_concat '\n' _

/-- A reply with a status is one line. -/
theorem StatusReply.line {reply : Text} (h : StatusReply reply) :
    ∃ line, '\n' ∉ line ∧ reply = line ++ ['\n'] := by
  obtain ⟨code, msg, -, hmsg, rfl⟩ := h
  exact ⟨decimalInt code ++ ' ' :: msg, not_mem_responseLine hmsg code, responseLine_eq code msg⟩

/-- A list of devices ends a line. -/
theorem enumReply_terminated (ds : List IrdaDevice) : Terminated '\n' (enumReply ds) := by
  apply terminated_flatten
  intro t ht
  obtain ⟨d, -, rfl⟩ := List.mem_map.mp ht
  exact responseLine_terminated _ _

/-- A reply of one line leaves nothing behind its first line. -/
theorem StatusReply.rest {reply line rest : Text} (h : StatusReply reply) (hline : '\n' ∉ line)
    (hreply : reply = line ++ '\n' :: rest) : rest = [] := by
  obtain ⟨line', hline', rfl⟩ := h.line
  exact (append_cons_inj hline' hline hreply).2.symm

/-! ### Response codes

Codes of three digits are read back as they were written.
-/

/-- A digit is read back. -/
theorem digitChar_spec : ∀ d : Fin 10,
    (Nat.digitChar d).isDigit = true ∧ digitValue (Nat.digitChar d) = d := by
  decide

/-- A code of three digits. -/
theorem decimal_of_three {n : Nat} (hlow : 100 ≤ n) (hhigh : n < 1000) :
    decimal n = [Nat.digitChar (n / 100), Nat.digitChar (n / 10 % 10), Nat.digitChar (n % 10)] := by
  have hdiv : n / 10 / 10 = n / 100 := Nat.div_div_eq_div_mul n 10 10
  rw [decimal, Nat.toDigits_of_base_le (by decide) (by omega),
    Nat.toDigits_of_base_le (by decide) (by omega), Nat.toDigits_of_lt_base (by omega), hdiv]
  rfl

/-- **A response line is read as it was written**, up to the size of the buffer. -/
theorem smarticParseResponse_line {code : Int} (hlow : 100 ≤ code) (hhigh : code < 1000) (msg : Text) :
    smarticParseResponse ((decimalInt code ++ ' ' :: msg).take 1023) =
      some (code, cstr (msg.take 1019)) := by
  obtain ⟨n, rfl⟩ : ∃ n : Nat, code = n := ⟨code.toNat, by omega⟩
  obtain ⟨ha, hva⟩ := digitChar_spec ⟨n / 100, by omega⟩
  obtain ⟨hb, hvb⟩ := digitChar_spec ⟨n / 10 % 10, by omega⟩
  obtain ⟨hc, hvc⟩ := digitChar_spec ⟨n % 10, by omega⟩
  have hdec : decimalInt n = _ := decimal_of_three (n := n) (by omega) (by omega)
  -- the code has three digits
  generalize Nat.digitChar (n / 100) = a at ha hva hdec
  generalize Nat.digitChar (n / 10 % 10) = b at hb hvb hdec
  generalize Nat.digitChar (n % 10) = c at hc hvc hdec
  have htake : (decimalInt n ++ ' ' :: msg).take 1023 = [a, b, c, ' '] ++ msg.take 1019 := by
    rw [hdec]
    rfl
  have hzero : '\x00' ∉ [a, b, c, ' '] := by
    intro hmem
    simp only [List.mem_cons, List.not_mem_nil, or_false] at hmem
    rcases hmem with rfl | rfl | rfl | hmem
    · cases ha
    · cases hb
    · cases hc
    · cases hmem
  have hsum : (digitValue a * 100 + digitValue b * 10 + digitValue c : Int) = n := by
    rw [hva, hvb, hvc]
    dsimp only
    omega
  rw [smarticParseResponse, htake, cstr_append hzero]
  show (if _ then _ else _) = _
  rw [if_pos ⟨ha, hb, hc, rfl⟩, hsum]
  rfl

/-! ### Information in a message

A message of the form `word: value` is split at its colon.
-/

/-- No colon, no split. -/
theorem splitLast_infoPart {s : Text} (h : ':' ∉ s) : splitLast infoPart s = none := by
  induction s with
  | nil => rfl
  | cons c s ih =>
    rw [List.mem_cons, not_or] at h
    have hinfo : infoPart (c :: s) = none := by
      unfold infoPart
      split
      · next heq =>
        cases heq
        exact absurd rfl h.1
      · rfl
    rw [splitLast, ih h.2, hinfo]
    rfl

/-- The information behind the last colon. -/
theorem smarticParseDevinfo_eq {text info : Text} (htext : '\x00' ∉ text) (hinfo : '\x00' ∉ info)
    (hcolon : ':' ∉ info) : smarticParseDevinfo (text ++ ':' :: ' ' :: info) = some info := by
  have hzero : '\x00' ∉ ':' :: ' ' :: info := by
    simp only [List.mem_cons, not_or]
    exact ⟨by decide, by decide, hinfo⟩
  have hlast : splitLast infoPart (':' :: ' ' :: info) = some ([], info) := by
    have hblank : ':' ∉ ' ' :: info := by
      rw [List.mem_cons, not_or]
      exact ⟨by decide, hcolon⟩
    rw [splitLast, splitLast_infoPart hblank]
    rfl
  rw [smarticParseDevinfo, cstr_append htext, cstr_eq hzero, splitLast_append hlast]
  rfl

/-- A number that has been written is read back. -/
theorem strtoulValue_decimal {n : Nat} (hn : n < 2 ^ 64) : strtoulValue (decimal n) = n := by
  have h := strtoul_decimal hn (show ([] : Text).takeWhile Char.isDigit = [] from rfl)
  rw [List.append_nil] at h
  rw [strtoulValue, h]

/-! ### Reading

A read takes bytes off the front of what is pending and nothing else.
-/

/-- The client only reads: the daemon does nothing, and what is read has been there. -/
structure Reads (l l' : Link S) : Prop where
  connected : l'.connected = l.connected
  server : l'.server = l.server
  produced : l'.produced = l.produced
  taken : ∃ t, l'.consumed = l.consumed ++ t ∧ l.channel.pending = t ++ l'.channel.pending

theorem Reads.refl (l : Link S) : Reads l l := ⟨rfl, rfl, rfl, [], (List.append_nil _).symm, rfl⟩

/-- Reads one behind the other. -/
theorem Reads.trans {l l' l'' : Link S} (h : Reads l l') (h' : Reads l' l'') : Reads l l'' := by
  obtain ⟨t, hcons, hpend⟩ := h.taken
  obtain ⟨t', hcons', hpend'⟩ := h'.taken
  refine ⟨h'.connected.trans h.connected, h'.server.trans h.server,
    h'.produced.trans h.produced, t ++ t', ?_, ?_⟩
  · rw [hcons', hcons, List.append_assoc]
  · rw [hpend, hpend', List.append_assoc]

theorem Link.reads_afterLine {l : Link S} {line : Text} {ch : Channel Char}
    {events : List NetEvent} (h : l.channel.pending = line ++ '\n' :: ch.pending) :
    Reads l (l.afterLine line ch events) := by
  refine ⟨rfl, rfl, rfl, line ++ ['\n'], rfl, ?_⟩
  rw [h, List.append_assoc]
  rfl

/-- A poll reads nothing. -/
theorem Link.reads_afterPoll {l : Link S} {ch : Channel Char} {events : List NetEvent}
    (h : ch.pending = l.channel.pending) : Reads l (l.afterPoll ch events) :=
  ⟨rfl, rfl, rfl, [], (List.append_nil _).symm, h.symm⟩

/-- A program that changes the error at most. -/
def Idle (m : Client S α) : Prop :=
  ∀ l, ∃ a code msg, m.run l = .ok (a, { l with errcode := code, errmsg := msg })

/-- A result is no read. -/
theorem Idle.pure (a : α) : Idle (pure a : Client S α) := fun l => ⟨a, l.errcode, l.errmsg, rfl⟩

/-- An error is no read. -/
theorem Idle.setError (code : Int) (msg : ErrorText) (a : α) :
    Idle (S := S) (do setError code msg; return a) := fun _ => ⟨a, code, msg, rfl⟩

theorem Idle.steady {E : Halt → Prop} {m : Client S α} (hm : Idle m) : Steady E m := by
  intro l h
  obtain ⟨a, code, msg, hrun⟩ := hm l
  exact Triple.of_run hrun h

/-- An error behind a read. -/
theorem Reads.idle {l l' : Link S} (h : Reads l l') (code : Int) (msg : ErrorText) :
    Reads l { l' with errcode := code, errmsg := msg } :=
  ⟨h.connected, h.server, h.produced, h.taken⟩

/-- A line is checked without a read. -/
theorem checkResponse_idle (timeout : Bool) (rLine : Text) (r : LineResult) :
    Idle (S := S) (checkResponse timeout rLine r) := by
  rw [checkResponse]
  split
  · exact Idle.setError _ _ _
  split
  · exact Idle.setError _ _ _
  split
  · exact Idle.setError _ _ _
  · exact Idle.pure _

theorem readResponse_steady {E : Halt → Prop} (timeout : Bool) (rLine : Text) :
    Steady (S := S) E (readResponse timeout rLine) :=
  (smarticSocketReadln_steady 1024).bind fun r => (checkResponse_idle timeout rLine r).steady

/-- A line in the buffer of a call, as it is parsed. -/
def parsed (line : Text) : Option (Text × Int × Text) :=
  (smarticParseResponse (line.take 1023)).map fun r => (line.take 1023, r.1, r.2)

theorem checkResponse_line (rLine line : Text) (l : Link S) :
    ∃ code msg, (checkResponse false rLine (lineResult 1024 line)).run l =
      .ok (parsed line, { l with errcode := code, errmsg := msg }) := by
  have hret : ¬(lineResult 1024 line).ret = -1 := by
    intro h
    have hpos : (0 : Int) ≤ (lineResult 1024 line).ret := Int.natCast_nonneg _
    rw [h] at hpos
    exact absurd hpos (by decide)
  rw [checkResponse, if_neg hret, if_neg (by simp [lineResult]), parsed]
  have htext : (lineResult 1024 line).text.getD rLine = line.take 1023 := rfl
  rw [htext]
  cases smarticParseResponse (line.take 1023) with
  | none => exact ⟨_, _, rfl⟩
  | some r => exact ⟨_, _, rfl⟩

/-- **One response line is read and parsed**, unless there is trouble. -/
theorem readResponse_spec (rLine : Text) (l : Link S) (hl : l.connected = true) :
    Triple (readResponse false rLine) l
      (fun r l' => l'.trouble = true ∨ ∃ line, '\n' ∉ line ∧
        l.channel.pending = line ++ '\n' :: l'.channel.pending ∧ Reads l l' ∧
        l'.polls = l.polls ∧ r = parsed line) never := by
  obtain ⟨r, l₁, hrun, h⟩ := smarticSocketReadln_spec (show 1024 ≠ 0 by decide) l hl
  apply (Triple.of_run (Q := fun r' l' => r' = r ∧ l' = l₁) hrun ⟨rfl, rfl⟩).bind
  rintro r l₁ ⟨rfl, rfl⟩
  rcases h with htrouble | ⟨line, ch, events, hline, hpend, -, rfl, rfl⟩
  · exact ((checkResponse_idle false rLine r).steady l₁ htrouble).imp fun _ _ h => .inl h
  · obtain ⟨code, msg, hcheck⟩ := checkResponse_line rLine line (l.afterLine line ch events)
    refine Triple.of_run hcheck (.inr ⟨line, hline, hpend, ?_, rfl, rfl⟩)
    exact (Link.reads_afterLine hpend).idle code msg

/-! ### Requests

The line goes out, the daemon answers, and the first line of the reply is read.
-/

/-- What the daemon sends back for a command. -/
def replyTo (W : Irda S) (fuel : Nat) (s : Server S) (cmd : Text) : Text :=
  (connRead W fuel s (cmd ++ ['\n'])).2

/-- The daemon has run the command once, and the client has read a part of what was
there to read. -/
structure Exchanged (W : Irda S) (fuel : Nat) (cmd : Text) (l l' : Link S) : Prop where
  connected : l'.connected = l.connected
  server : l'.server = (connRead W fuel l.server (cmd ++ ['\n'])).1
  produced : l'.produced = l.produced ++ replyTo W fuel l.server cmd
  taken : ∃ t, l'.consumed = l.consumed ++ t ∧
    l.channel.pending ++ replyTo W fuel l.server cmd = t ++ l'.channel.pending

/-- More of the reply is read. -/
theorem Exchanged.reads {cmd : Text} {l l₁ l' : Link S} (h : Exchanged W fuel cmd l l₁)
    (h' : Reads l₁ l') : Exchanged W fuel cmd l l' := by
  obtain ⟨t, hcons, hpend⟩ := h.taken
  obtain ⟨t', hcons', hpend'⟩ := h'.taken
  refine ⟨h'.connected.trans h.connected, h'.server.trans h.server, h'.produced.trans h.produced,
    t ++ t', ?_, ?_⟩
  · rw [hcons', hcons, List.append_assoc]
  · rw [hpend, hpend', List.append_assoc]

/-- Between two calls: the client has read all that the daemon has sent. -/
structure Synced (l : Link S) : Prop where
  connected : l.connected = true
  server : l.server.Waiting
  pending : l.channel.pending = []
  consumed : l.consumed = l.produced

/-- The client has read the reply and nothing else exactly if nothing is left. -/
theorem Exchanged.consumed_iff {cmd : Text} {l l' : Link S} (h : Exchanged W fuel cmd l l')
    (hl : Synced l) :
    l'.consumed = l.consumed ++ replyTo W fuel l.server cmd ↔ l'.channel.pending = [] := by
  obtain ⟨t, hcons, hpend⟩ := h.taken
  rw [hl.pending, List.nil_append] at hpend
  constructor
  · intro hconsumed
    have heq := hcons.symm.trans hconsumed
    rw [List.append_cancel_left heq] at hpend
    exact List.self_eq_append_right.mp hpend
  · intro hnil
    rw [hnil, List.append_nil] at hpend
    rw [hcons, hpend]

/-- A call that has read its own reply leaves the client and the daemon in step. -/
theorem Exchanged.synced {cmd : Text} {l l' : Link S} (h : Exchanged W fuel cmd l l')
    (hl : Synced l) (hcmd : ∀ c ∈ cmd, isEol c = false) (hpend : l'.channel.pending = []) :
    Synced l' := by
  refine ⟨h.connected.trans hl.connected, ?_, hpend, ?_⟩
  · rw [h.server]
    exact (connRead_line hl.server hcmd).1
  · rw [(h.consumed_iff hl).mpr hpend, h.produced, hl.consumed]

/-- The first line of a reply, as a call gets it. -/
def response (line : Text) : Except Int (Text × Int × Text) :=
  match parsed line with
  | none => .error (-1)
  | some r => .ok r

theorem firstResponse_steady {E : Halt → Prop} (w : WriteResult) :
    Steady (S := S) E (firstResponse w) := by
  rw [firstResponse]
  split
  · exact Steady.pure _
  refine Steady.bind (fun l h => h) fun rLine => ?_
  apply (readResponse_steady w.timeout rLine).bind
  rintro (_ | r)
  · exact Steady.pure _
  · exact Steady.pure _

theorem smarticRequest_steady {E : Halt → Prop} (cmd : Text) :
    Steady E (smarticRequest W fuel cmd) :=
  (smarticSocketWrite_steady W fuel _).bind firstResponse_steady

/-- **A request** makes the daemon run the command, and reads the first line of its
reply, unless there is trouble. -/
theorem smarticRequest_spec {cmd : Text} (hcmd : ∀ c ∈ cmd, isEol c = false) {l : Link S}
    (hl : Synced l) :
    Triple (smarticRequest W fuel cmd) l
      (fun r l' => l'.trouble = true ∨ Exchanged W fuel cmd l l' ∧ l'.polls = l.polls ∧
        ∃ line, '\n' ∉ line ∧
          replyTo W fuel l.server cmd = line ++ '\n' :: l'.channel.pending ∧
          r = response line) never := by
  have hbody : ∀ c ∈ l.server.input ++ cmd, isEol c = false := by
    rw [hl.server.input]
    exact hcmd
  obtain ⟨w, l₁, hrun, h⟩ := @smarticSocketWrite_spec S W fuel cmd l hl.connected
    hl.server.flushed hbody
  apply (Triple.of_run (Q := fun w' l' => w' = w ∧ l' = l₁) hrun ⟨rfl, rfl⟩).bind
  rintro w l₁ ⟨rfl, rfl⟩
  rcases h with htrouble | ⟨ch, events, -, hpend, rfl, rfl⟩
  · exact (firstResponse_steady w l₁ htrouble).imp fun _ _ h => .inl h
  rw [hl.pending, List.nil_append] at hpend
  -- the daemon has answered, and nothing of its answer has been read
  have hwrite : Exchanged W fuel cmd l (l.afterWrite W fuel (cmd ++ ['\n']) ch events) := by
    refine ⟨rfl, rfl, rfl, [], (List.append_nil _).symm, ?_⟩
    rw [hl.pending]
    exact hpend.symm
  rw [firstResponse, if_neg (fun h => h rfl)]
  refine (Triple.of_run (Q := fun _ l' => l' = l.afterWrite W fuel (cmd ++ ['\n']) ch events)
    (a := l.junk) rfl rfl).bind ?_
  rintro rLine _ rfl
  have hconn : (l.afterWrite W fuel (cmd ++ ['\n']) ch events).connected = true := hl.connected
  apply (readResponse_spec rLine _ hconn).bind
  rintro r l₂ (htrouble | ⟨line, hline, hfirst, hreads, hpolls, rfl⟩)
  · cases r with
    | none => exact .inl htrouble
    | some r => exact .inl htrouble
  · have hfirst' : replyTo W fuel l.server cmd = line ++ '\n' :: l₂.channel.pending :=
      hpend.symm.trans hfirst
    cases hparsed : parsed line with
    | none =>
      refine .inr ⟨hwrite.reads hreads, hpolls, line, hline, hfirst', ?_⟩
      rw [response, hparsed]
    | some r =>
      refine .inr ⟨hwrite.reads hreads, hpolls, line, hline, hfirst', ?_⟩
      rw [response, hparsed]

end BenthosDc
