import TypedHandles.Value

/-!
Laying out programs: which slots there are, how an argument is passed through a chain of steps on
its way, and programs that end in one call.
-/
namespace TypedHandles
namespace Program

/-- The slots from `start` up to `stop`. -/
def slots (start stop : Nat) : List Slot := List.range' start (stop - start)

/-- The slot that holds the result; a `void` result is not kept. -/
def resultSlot (ret : Kind) (slot : Slot) : Option Slot := if ret.isVoid then none else some slot

/-- The conversion of a slot from one kind to another, left out when the kinds agree. -/
def conversion (source target : Kind) : List (Slot → Binding) :=
  if source == target then [] else [fun slot => ⟨target, .convert slot source target⟩]

/-- Chains bindings, the first on `slot` and each further one on the slot of the one before. The
first free slot is `next`. Yields the bindings and the slot at the end of the chain. -/
def chain (next slot : Slot) : List (Slot → Binding) → List Binding × Slot
  | [] => ([], slot)
  | f :: rest =>
    let (bindings, last) := chain (next + 1) next rest
    (f slot :: bindings, last)

/-- Lays out one chain for each argument, in order. Yields the bindings and the last slots. -/
def layout (next : Slot) : List (Slot × List (Slot → Binding)) → List Binding × List Slot
  | [] => ([], [])
  | (slot, steps) :: rest =>
    let (first, last) := chain next slot steps
    let (others, lasts) := layout (next + first.length) rest
    (first ++ others, last :: lasts)

/-- The program that ends in a call of `target` after the bindings `before`. -/
def calling (arity : Nat) (before : List Binding) (target : Handle) (args : List Slot) : Program :=
  ⟨arity, before ++ [⟨target.signature.ret, .call target args⟩],
    resultSlot target.signature.ret (arity + before.length)⟩

/-- The program of one step over all arguments of a signature. -/
def single (s : Signature) (step : List Slot → Step) : Program :=
  ⟨s.arity, [⟨s.ret, step (slots 0 s.arity)⟩], resultSlot s.ret s.arity⟩

end Program
end TypedHandles
