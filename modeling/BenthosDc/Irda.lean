/-
BenthosDc/Irda.lean

The IrDA socket as the daemon and the local driver see it (`irda.h`).

The kernel and the device behind the socket are a state of type `S` of which
nothing is known: an `Irda S` says how each operation ends in a given state and
which state it leaves.  Every outcome of every operation is thus some `Irda S`.

Nothing is assumed of how states follow on each other: a device may answer at one time and fail
at another, and a theorem for all `Irda S` is one for all devices, links and kernels.
-/
import BenthosDc.Lib.CString
import BenthosDc.Lib.Loop
import BenthosDc.Unpack

namespace BenthosDc

open CString Loop

/-- How a socket operation ends: a return code other than zero, the timeout flag
set, or success. -/
inductive IoResult (α : Type)
  | failed
  | timedOut
  | done (a : α)
  deriving DecidableEq

/-- A device that a discovery finds. -/
structure IrdaDevice where
  addr : UInt32
  name : Text
  deriving DecidableEq

/-- The operations on a socket, with the outcome and the state that each of them leaves. -/
structure Irda (S : Type) where
  /-- `irda_socket_discover`, with the devices in the order of the callbacks; `none`
  is a negative return value. -/
  discover : S → Option (List IrdaDevice) × S
  connectLsap : S → Nat → Nat → IoResult Unit × S
  /-- The number is the count of bytes that were accepted. -/
  write : S → List UInt8 → IoResult Nat × S
  read : S → Nat → IoResult (List UInt8) × S
  /-- `time(NULL)` -/
  time : S → Nat × S
  /-- The bytes that a local variable holds before it is set. -/
  junk : S → Nat → UInt8
  /-- Whether `free` returns when it is handed a pointer that `malloc` did not
  return; if it does not, the process is aborted. -/
  foreignFree : Bool

variable {S : Type}

/-! ### Commands and answers -/

/-- The bytes of a `uint32_t` in memory. -/
def uint32Bytes (n : Nat) : List UInt8 :=
  [UInt8.ofNat n, UInt8.ofNat (n >>> 8), UInt8.ofNat (n >>> 16), UInt8.ofNat (n >>> 24)]

/-- The nine bytes of a command with a token. -/
def tokenCmd (code : UInt8) (token : Nat) : List UInt8 :=
  code :: uint32Bytes token ++ [0x10, 0x27, 0, 0]

/-- The value of a `uint32_t` after the first bytes of it have been received; the
other bytes are as they were. -/
def received (bytes ans : List UInt8) : List UInt8 :=
  bytes.take ans.length ++ ans.drop (bytes.take ans.length).length

/-- A number is read back from its bytes. -/
theorem uint32Le_uint32Bytes {n : Nat} (h : n < 2 ^ 32) : uint32Le (uint32Bytes n) 0 = n := by
  have hbyte : ∀ k, (UInt8.ofNat k).toNat = k % 256 := fun k => UInt8.toNat_ofNat'
  rw [uint32Le_eq]
  show (UInt8.ofNat n).toNat + (UInt8.ofNat (n >>> 8)).toNat <<< 8 +
    (UInt8.ofNat (n >>> 16)).toNat <<< 16 + (UInt8.ofNat (n >>> 24)).toNat <<< 24 = n
  simp only [hbyte, Nat.shiftLeft_eq, Nat.shiftRight_eq_div_pow]
  omega

/-- A complete answer replaces what was there. -/
theorem received_of_length {bytes ans : List UInt8} (h : bytes.length = ans.length) :
    received bytes ans = bytes := by
  rw [received, ← h, List.take_length, h, List.drop_length, List.append_nil]

/-! ### Reading a block -/

/-- `nc`, the number of bytes to ask for. -/
def chunkLength (csize len : Nat) : Nat := if len > csize then csize else len

/-- No more is asked for than is to come. -/
theorem chunkLength_le (csize len : Nat) : chunkLength csize len ≤ len := by
  rw [chunkLength]
  split
  · omega
  · exact le_rfl

/-- One pass of the loop that reads a block in chunks (`smart_driver_transfer`,
`smartid_dev_xfer_data`): the bytes so far and the number of bytes to come. -/
def readChunk (W : Irda S) (csize : Nat) :
    S × List UInt8 × Nat → Iter (S × List UInt8 × Nat) (IoResult (List UInt8) × S)
  | (w, buf, len) =>
    if len = 0 then .stop (.done buf, w)
    else
      match W.read w (chunkLength csize len) with
      | (.failed, w) => .stop (.failed, w)
      | (.timedOut, w) => .stop (.timedOut, w)
      | (.done bytes, w) =>
          let bytes := bytes.take (chunkLength csize len)
          .next (w, buf ++ bytes, len - bytes.length)

/-- A pass that goes on has read bytes. -/
theorem readChunk_next {W : Irda S} {csize len len' : Nat} {w w' : S} {buf buf' : List UInt8}
    (h : readChunk W csize (w, buf, len) = .next (w', buf', len')) :
    len ≠ 0 ∧ ∃ bytes, W.read w (chunkLength csize len) = (.done bytes, w') ∧
      buf' = buf ++ bytes.take (chunkLength csize len) ∧
      len' = len - (bytes.take (chunkLength csize len)).length := by
  rw [readChunk] at h
  split at h
  · cases h
  next hlen =>
  split at h
  · cases h
  · cases h
  next bytes w₁ hread =>
  cases h
  exact ⟨hlen, bytes, hread, rfl, rfl⟩

/-- The loop is left with the bytes when none are to come. -/
theorem readChunk_stop_done {W : Irda S} {csize len : Nat} {w w' : S} {buf data : List UInt8}
    (h : readChunk W csize (w, buf, len) = .stop (.done data, w')) :
    len = 0 ∧ data = buf ∧ w' = w := by
  rw [readChunk] at h
  split at h
  · next hlen =>
    cases h
    exact ⟨hlen, rfl, rfl⟩
  · split at h <;> cases h

/-- **A block that is read has the length that was asked for.** -/
theorem length_of_readChunk_returns {W : Irda S} {csize len : Nat} {w w' : S}
    {buf data : List UInt8}
    (h : Returns (readChunk W csize) (w, buf, len) (.done data, w')) :
    data.length = buf.length + len := by
  -- the bytes read and the bytes to come add up to the same number
  refine h.invariant (I := fun s => s.2.1.length + s.2.2 = buf.length + len)
    (Q := fun r => ∀ data, r.1 = .done data → data.length = buf.length + len) ?_ ?_ rfl data rfl
  · rintro ⟨w₁, buf₁, len₁⟩ ⟨w₂, buf₂, len₂⟩ hsum hnext
    obtain ⟨-, bytes, -, rfl, rfl⟩ := readChunk_next hnext
    have hsum : buf₁.length + len₁ = buf.length + len := hsum
    have htake := List.length_take_le (chunkLength csize len₁) bytes
    have hle := chunkLength_le csize len₁
    show (buf₁ ++ _).length + (len₁ - _) = _
    rw [List.length_append]
    omega
  · rintro ⟨w₁, buf₁, len₁⟩ ⟨r, w₂⟩ hsum hstop data rfl
    obtain ⟨rfl, rfl, -⟩ := readChunk_stop_done hstop
    exact hsum

end BenthosDc
