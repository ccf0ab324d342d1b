import Autotype.Proofs.Performance
import Autotype.Store.Geometry

/-!
# Structured programs

A program is a list of statements: plain instructions, and loops over lists of statements. Written down it
is a string of bytes in which a loop is only an instruction that announces the length of its body, and
which ends with the instruction that ends a script. What a program shows is given by recursion on its
statements, without offsets: loops do not nest, so a loop inside a loop shows nothing, and a loop whose
count is zero is run once.
-/

namespace Autotype

/-- A statement of a program. -/
inductive Stmt where
  | plain (i : { i : Instr // i.Plain })
  /-- A loop over the body; the count is what is written down. -/
  | loop (count : UInt8) (body : List Stmt)

namespace Stmt

/-! ## Layout -/

mutual

/-- A statement as it is laid out. -/
def encode : Stmt → Bytes
  | .plain i => i.val.encode
  | .loop count body =>
    (Instr.loop count (.ofNat (encodeAll body).length)).encode ++ encodeAll body

/-- Statements laid out one after the other. -/
def encodeAll : List Stmt → Bytes
  | [] => []
  | s :: ss => s.encode ++ encodeAll ss

end

/-- Whether a statement can be laid out: the body of a loop is not empty, and its length fits into one
byte. -/
def Fits : Stmt → Prop
  | .plain _ => True
  | .loop _ body => body ≠ [] ∧ (encodeAll body).length < 256

instance : DecidablePred Fits := fun s =>
  match s with
  | .plain _ => inferInstanceAs (Decidable True)
  | .loop _ body => inferInstanceAs (Decidable (body ≠ [] ∧ (encodeAll body).length < 256))

theorem encode_pos (s : Stmt) : 0 < s.encode.length := by
  cases s with
  | plain i =>
    obtain ⟨i, plain⟩ := i
    cases i <;> simp [encode, Instr.encode]
  | loop count body => simp [encode, Instr.encode]

theorem encodeAll_pos {ss : List Stmt} (some : ss ≠ []) : 0 < (encodeAll ss).length := by
  cases ss with
  | nil => exact absurd rfl some
  | cons s ss =>
    have first := s.encode_pos
    simp only [encodeAll, List.length_append]
    omega

/-! ## Meaning -/

/-- What a statement shows inside a loop. -/
def performInside (layout : Layout) : Stmt → Performance
  | .plain i => i.val.perform layout
  | .loop _ _ => .rest

/-- What a statement shows outside loops. -/
def perform (layout : Layout) : Stmt → Performance
  | .plain i => i.val.perform layout
  | .loop count body => .times (max count.toNat 1) (.inOrder (body.map (performInside layout)))

end Stmt

/-- A program that fits into the script region. -/
structure Program where
  stmts : List Stmt
  fits : ∀ s ∈ stmts, s.Fits
  /-- With its last instruction the program is no longer than a script can be. -/
  room : (Stmt.encodeAll stmts ++ Instr.finish.encode).length ≤ maxScript

namespace Program

/-- The script that a program is written down as. -/
def bytes (p : Program) : Bytes :=
  Stmt.encodeAll p.stmts ++ Instr.finish.encode

/-- The reports that a program stands for, from nothing held on. -/
def reports (layout : Layout) (p : Program) : List Report :=
  ((Performance.inOrder (p.stmts.map (Stmt.perform layout))).andThen
    (Instr.finish.perform layout) {}).1

end Program

end Autotype
