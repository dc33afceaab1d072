import ReaderWriter.ReadMostly.Locals

/-!
# Scripts on flags

Rows of actions of one thread on blocks and flags. The script numbers the blocks and the flags
that it comes by, each in the order in which they come.
-/

namespace ReaderWriter.Script

open ReadMostly

/-- An action on flags. -/
inductive FlagAction where
  /-- A new block. -/
  | block
  /-- The diagnostic text of a block. -/
  | blockDebug (block : Nat)
  /-- The flag at a slot of a block. -/
  | inBlock (block slot : Nat)
  /-- A flag in a block of its own. -/
  | isolated
  /-- So many packed flags. -/
  | packed (n : Nat)
  /-- Another handle to a flag. -/
  | clone (flag : Nat)
  | put (flag : Nat) (up : Bool)
  | debug (flag : Nat)
  /-- Whether two handles are to the same flag. -/
  | same (flag other : Nat)
  /-- Anything else. -/
  | unknown

/-- What an action answers. -/
inductive FlagAnswer where
  | nothing
  | index (n : Nat)
  | truth (b : Bool)
  | text (s : String)
  | unknown
deriving DecidableEq

/-- The state of a script. -/
structure FlagSession where
  blocks : List Nat := []
  flags : List Flag := []
  memory : Flags := {}
  locals : Locals := {}

namespace FlagSession

/-- The script comes by a flag. -/
def gain (s : FlagSession) (f : Flag) : FlagSession × List FlagAnswer :=
  ({ s with flags := s.flags ++ [f] }, [.text (s.memory.shown f).line])

/-- The script is handed a flag by a supply. -/
def allocate (s : FlagSession) (supply : Supply) : FlagSession × List FlagAnswer :=
  match supply.allocate s.memory s.locals with
  | .ok handed => { s with memory := handed.flags, locals := handed.locals }.gain handed.flag
  | .error _ => (s, [.nothing])

/-- The script is handed `n` packed flags. -/
def allocatePacked (s : FlagSession) : Nat → FlagSession × List FlagAnswer
  | 0 => (s, [])
  | n + 1 =>
      let (s', answers) := s.allocate .packed
      let (s'', rest) := s'.allocatePacked n
      (s'', answers ++ rest)

/-- An answer that needs a flag; there is none if the flag is not there. -/
def withFlag (s : FlagSession) (flag : Nat)
    (f : Flag → FlagSession × List FlagAnswer) : FlagSession × List FlagAnswer :=
  match s.flags[flag]? with
  | some g => f g
  | none => (s, [.nothing])

/-- What an action answers and leaves behind. -/
def act (s : FlagSession) : FlagAction → FlagSession × List FlagAnswer
  | .block =>
      let (block, memory) := s.memory.newBlock
      ({ s with memory := memory, blocks := s.blocks ++ [block] }, [.index s.blocks.length])
  | .blockDebug block =>
      match s.blocks[block]? with
      | some b => (s, [.text (s.memory.blockShown b).line])
      | none => (s, [.nothing])
  | .inBlock block slot =>
      match s.blocks[block]?.bind (Flag.inBlock? · slot) with
      | some f => s.gain f
      | none => (s, [.nothing])
  | .isolated => s.allocate .isolated
  | .packed n => s.allocatePacked n
  | .clone flag => s.withFlag flag s.gain
  | .put flag up =>
      s.withFlag flag fun f =>
        let memory := s.memory.put f up
        ({ s with memory := memory }, [.truth (memory.isRaised f)])
  | .debug flag => s.withFlag flag fun f => (s, [.text (s.memory.shown f).line])
  | .same flag other =>
      s.withFlag flag fun f => s.withFlag other fun g => (s, [.truth (f == g)])
  | .unknown => (s, [.unknown])

/-- The answers of a row of actions. -/
def run (s : FlagSession) : List FlagAction → List FlagAnswer
  | [] => []
  | a :: rest =>
      let (s', answers) := s.act a
      answers ++ s'.run rest

end FlagSession

end ReaderWriter.Script
