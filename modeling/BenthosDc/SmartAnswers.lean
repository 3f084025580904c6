/-
BenthosDc/SmartAnswers.lean

What a Smart device does in a transfer, and what a transfer comes to.

The device is asked twice, for the size of its data and for the data itself.  It sends the
length of what follows ahead of the data, and counts the four bytes of this length as well.
How the socket cuts the data into pieces is left open; `TransferAnswers.transferred` says
what a driver should make of the answers, whichever way it reaches the device.

Both drivers are compared with it: the local one reads the socket of the device itself, and the
networked one through a daemon that does.
-/
import BenthosDc.Irda
import BenthosDc.Lib.Delivery

namespace BenthosDc

open Delivery Loop

variable {S : Type} {W : Irda S}

/-! ### Answers

A device is described by what it sends, with the bounds that the drivers rely on.  What the
socket does with a request is stated of single calls, so that both drivers can use it.
-/

/-- The answers of a device in a transfer. -/
structure TransferAnswers where
  size : Nat
  /-- The length that is sent ahead of the data. -/
  nb : Nat
  stream : List UInt8
  size_lt : size < 2 ^ 30
  nb_lt : nb < 2 ^ 30
  le_stream : nb - 4 ≤ stream.length

/-- **What a transfer comes to**: the size and the data, or nothing if the two lengths do
not agree. -/
def TransferAnswers.transferred (x : TransferAnswers) : Option (Nat × List UInt8) :=
  if x.size = 0 then some (0, [])
  else if x.nb = x.size + 4 then some (x.size, x.stream.take x.size)
  else none

/-- The socket hands out bytes. -/
def Irda.Gets (W : Irda S) (w : S) (n : Nat) (bytes : List UInt8) (w' : S) : Prop :=
  W.read w n = (.done bytes, w')

/-- The device takes a command, and sends a complete answer of four bytes. -/
def Irda.Replies (W : Irda S) (cmd : List UInt8) (n : Nat) (w w' : S) : Prop :=
  ∃ k w₁, W.write w cmd = (.done k, w₁) ∧ W.Gets w₁ 4 (uint32Bytes n) w'

/-- A device that gives the answers `x` for a token: first the size, then the length and,
in pieces of any size, the bytes behind it. -/
def Irda.Serves (W : Irda S) (token : Nat) (x : TransferAnswers) (w : S) : Prop :=
  ∃ w₁ w₂, W.Replies (tokenCmd 0xc6 token) x.size w w₁ ∧
    W.Replies (tokenCmd 0xc4 token) x.nb w₁ w₂ ∧ HandsOut W.Gets x.stream w₂

/-- A complete answer is the number. -/
theorem uint32Le_received {n : Nat} (hn : n < 2 ^ 32) {ans : List UInt8} (hans : ans.length = 4) :
    uint32Le (received (uint32Bytes n) ans) 0 = n := by
  have hlen : (uint32Bytes n).length = ans.length := hans.symm
  rw [received_of_length hlen]
  exact uint32Le_uint32Bytes hn

/-! ### Chunks

The data is read in chunks of at most the chunk size.  Whatever the socket gives of a chunk,
the bytes arrive in order.
-/

/-- A chunk is never empty while bytes are to come. -/
theorem chunkLength_pos {csize len : Nat} (hcsize : 0 < csize) (hlen : len ≠ 0) :
    0 < chunkLength csize len := by
  rw [chunkLength]
  split
  · exact hcsize
  · omega

/-- The data of the device arrives whole, in whatever chunks it is asked for. -/
theorem gathered_chunks {csize len : Nat} {stream : List UInt8} {w : S} (hcsize : 0 < csize)
    (h : HandsOut W.Gets stream w) (hlen : len ≤ stream.length) :
    ∃ w', Gathered W.Gets (chunkLength csize) len w (stream.take len) w' := by
  apply h.gathered
  · intro n hn
    exact ⟨chunkLength_pos hcsize hn, chunkLength_le csize n⟩
  · exact hlen

/-- The loop of the daemon reads it within as many passes. -/
theorem iterate_readChunk {csize len fuel : Nat} {w w' : S} {data : List UInt8}
    (h : Gathered W.Gets (chunkLength csize) len w data w') (hfuel : len < fuel)
    (buf : List UInt8) :
    iterate (readChunk W csize) fuel (w, buf, len) = .stop (.done (buf ++ data), w') := by
  obtain ⟨fuel, rfl⟩ : ∃ n, fuel = n + 1 := ⟨fuel - 1, by omega⟩
  induction h generalizing buf fuel with
  | @done w =>
    have hstop : readChunk W csize (w, buf, 0) = .stop (.done buf, w) := rfl
    rw [List.append_nil]
    exact iterate_succ_stop hstop fuel
  | @more len w w₁ w' piece data hlen hread hne hle _ ih =>
    have hpiece : 0 < piece.length := List.length_pos_iff.mpr hne
    have hnext : readChunk W csize (w, buf, len) =
        .next (w₁, buf ++ piece, len - piece.length) := by
      rw [readChunk, if_neg hlen, show W.read w _ = _ from hread]
      dsimp only
      rw [List.take_of_length_le hle]
    rw [iterate_succ_next hnext]
    obtain ⟨fuel, rfl⟩ : ∃ n, fuel = n + 1 := ⟨fuel - 1, by omega⟩
    rw [ih (buf ++ piece) fuel (by omega), List.append_assoc]

end BenthosDc
