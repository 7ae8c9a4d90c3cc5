import TypedHandles.Failure.Code
import TypedHandles.Program.Structure
import TypedHandles.Session
import TypedHandles.Proofs.Conversion
import TypedHandles.Proofs.AdapterTyping
import TypedHandles.Proofs.ControlTyping
import TypedHandles.Proofs.Building
import TypedHandles.Proofs.Invariant
import TypedHandles.Proofs.Primitives
import TypedHandles.Proofs.Running
import TypedHandles.Proofs.TypeSafety
import TypedHandles.Proofs.Fatality
import TypedHandles.Proofs.VariableArity
import TypedHandles.Proofs.Layers
import TypedHandles.Proofs.Course
import TypedHandles.Proofs.Publication
import TypedHandles.Proofs.Members
import TypedHandles.Proofs.Privacy
import TypedHandles.Proofs.FieldStore
import TypedHandles.Proofs.LinkedPoints
import TypedHandles.Proofs.Lambdas
import TypedHandles.Proofs.Retyping
import TypedHandles.Proofs.LooseCalls
import TypedHandles.Proofs.InvocationFailures
import TypedHandles.Proofs.CountedLoops
import TypedHandles.Proofs.IteratedLoops
import TypedHandles.Proofs.Remembering
import TypedHandles.Proofs.Filtering
import TypedHandles.Proofs.Throwing
import TypedHandles.Proofs.Spreading
import TypedHandles.Proofs.Reverting
import TypedHandles.Proofs.SharedConstants
import TypedHandles.Proofs.Resolution
import TypedHandles.Proofs.Interning
import TypedHandles.Proofs.Positions
import TypedHandles.Proofs.TypeOrder
import TypedHandles.Proofs.Acyclicity
import TypedHandles.Proofs.EditAlgebra
