import Mathlib.Data.List.Basic

/-!
# A pipelined client

Requests are buffered when they are fired and leave at a flush, which the client may also make on
its own within a fire; replies come in request order. A fire or flush that fails discards exactly
the requests buffered since the last flush.
-/

namespace Pipeline

/-- What a client has in flight: requests sent and not answered, oldest first, then requests
buffered since the last flush. -/
structure Client (ρ : Type*) where
  wire : List ρ
  buffered : List ρ

namespace Client

variable {ρ : Type*}

def new : Client ρ := ⟨[], []⟩

def outstanding (cl : Client ρ) : List ρ := cl.wire ++ cl.buffered

def pendingCount (cl : Client ρ) : Nat := cl.wire.length + cl.buffered.length

def flush (cl : Client ρ) : Client ρ := ⟨cl.wire ++ cl.buffered, []⟩

/-- A fire that succeeds, and flushes if the batch is full. -/
def fire (cl : Client ρ) (r : ρ) (flushes : Bool) : Client ρ :=
  let cl : Client ρ := ⟨cl.wire, cl.buffered ++ [r]⟩
  if flushes then cl.flush else cl

/-- A fire or flush that fails. -/
def discard (cl : Client ρ) : Client ρ := ⟨cl.wire, []⟩

def reply (cl : Client ρ) : Client ρ := ⟨cl.wire.tail, cl.buffered⟩

@[simp] theorem flush_wire (cl : Client ρ) : cl.flush.wire = cl.outstanding := rfl

@[simp] theorem flush_buffered (cl : Client ρ) : cl.flush.buffered = [] := rfl

@[simp] theorem discard_wire (cl : Client ρ) : cl.discard.wire = cl.wire := rfl

@[simp] theorem discard_buffered (cl : Client ρ) : cl.discard.buffered = [] := rfl

@[simp] theorem outstanding_fire (cl : Client ρ) (r : ρ) (flushes : Bool) :
    (cl.fire r flushes).outstanding = cl.outstanding ++ [r] := by
  cases flushes <;> simp [fire, flush, outstanding]

theorem mem_buffered_fire {cl : Client ρ} {r x : ρ} {flushes : Bool}
    (h : x ∈ (cl.fire r flushes).buffered) : x ∈ cl.buffered ∨ x = r := by
  cases flushes with
  | false => simpa [fire] using h
  | true => simp [fire] at h

theorem pendingCount_sub_discard (cl : Client ρ) :
    cl.pendingCount - cl.discard.pendingCount = cl.buffered.length := by
  simp [pendingCount]

end Client

end Pipeline
