import ReaderWriter.Fault
import ReaderWriter.ReadMostly.Flag

/-!
# What a thread keeps for itself

A thread remembers, for every read-mostly lock that it has used, the flag it was given: its nodes.
Suppliers that put several flags of a thread into one block keep that block here too. Each item
comes into being at its first use. When the thread ends the items are torn down, the latest first;
an item that is torn down cannot be used again.
-/

namespace ReaderWriter.ReadMostly

/-- The things a thread keeps for itself. -/
inductive Item where
  /-- The nodes. -/
  | nodes
  /-- The calls to be made when the thread ends. -/
  | armed
  /-- The block that packed flags come from. -/
  | block
  /-- The block of a flag whose partner has not been handed out. -/
  | pair
deriving DecidableEq

/-- Nothing remains to be done when an item of this sort has been torn down. -/
def Item.isSilent : Item → Bool
  | .block | .pair => true
  | .nodes | .armed => false

/-- What a thread keeps for itself. -/
structure Locals where
  /-- The items in use, the latest first. -/
  inUse : List Item := []
  /-- The items that have been torn down. -/
  torn : List Item := []
  /-- The flag of the thread on each lock, under the lock's key. -/
  nodes : List (Nat × Flag) := []
  /-- The block that packed flags come from, and its first free slot. -/
  block : Option (Nat × Nat) := none
  /-- A block of which only slot 0 is handed out. -/
  pair : Option Nat := none
deriving DecidableEq

namespace Locals

/-- Uses an item, for the first time or again. -/
def touch (l : Locals) (i : Item) : Locals :=
  if i ∈ l.torn ∨ i ∈ l.inUse then l else { l with inUse := i :: l.inUse }

/-- Whether an item can still be used. -/
def canUse (l : Locals) (i : Item) : Bool := decide (i ∉ l.torn)

/-- Takes items out of use for good, the latest first, up to the first one after which something
remains to be done. -/
def tearDown? (l : Locals) : Option (Item × Locals) :=
  match l.inUse.dropWhile Item.isSilent with
  | [] => none
  | i :: rest =>
      let torn := (l.inUse.takeWhile Item.isSilent).reverse ++ l.torn
      some (i, { l with inUse := rest, torn := i :: torn })

/-- The thread's flag on the lock with this key. -/
def node? (l : Locals) (key : Nat) : Option Flag := l.nodes.lookup key

/-- Remembers a flag. Nodes of locks that are gone are dropped on the way: they only take room. -/
def remember (l : Locals) (alive : Nat → Bool) (key : Nat) (f : Flag) : Locals :=
  { l with nodes := l.nodes.filter (fun node => alive node.1) ++ [(key, f)] }

end Locals

/-- How flags are spread over blocks. -/
inductive Supply where
  /-- A block for every flag. -/
  | isolated
  /-- The flags of one thread fill block after block. -/
  | packed
  /-- Two flags of one thread share a block. -/
  | paired
  /-- A supply of the user's own, told by what it hands out: the flag at index `n` is the one that
  it hands out when `n` blocks have been handed out before. -/
  | listed (flags : List Flag)
deriving DecidableEq

namespace Supply

/-- A flag that was handed out, with what the handing out left behind. -/
structure Handed where
  flag : Flag
  flags : Flags
  locals : Locals

/-- A flag in a block of its own. -/
def ofOwnBlock (m : Flags) (l : Locals) : Handed :=
  { flag := m.isolated.1, flags := m.isolated.2, locals := l }

/-- The next flag of the thread's current block, or the first one of a new block if the current
one is full. -/
def pack (m : Flags) (l : Locals) : Handed :=
  match l.block with
  | some (block, next) =>
      if h : next < flagsPerBlock then
        { flag := ⟨block, ⟨next, h⟩⟩
          flags := m
          locals := { l with block := some (block, next + 1) } }
      else { ofOwnBlock m l with locals := { l with block := some (m.blocks, 1) } }
  | none => { ofOwnBlock m l with locals := { l with block := some (m.blocks, 1) } }

/-- The partner of the last flag, or the first flag of a new pair. -/
def pair (m : Flags) (l : Locals) : Handed :=
  match l.pair with
  | some block => { flag := ⟨block, ⟨1, by decide⟩⟩, flags := m, locals := { l with pair := none } }
  | none => { ofOwnBlock m l with locals := { l with pair := some m.blocks } }

/-- Hands out a flag to the thread that keeps `l`. Once its block is torn down a thread gets
packed flags in blocks of their own; paired flags are not to be had any more. -/
def allocate (s : Supply) (m : Flags) (l : Locals) : Except Fault Handed :=
  match s with
  | .isolated => .ok (ofOwnBlock m l)
  | .packed => .ok (if l.canUse .block then pack m (l.touch .block) else ofOwnBlock m l)
  | .paired => if l.canUse .pair then .ok (pair m (l.touch .pair)) else .error .supplyGone
  | .listed flags =>
      match flags[m.blocks]? with
      | some f => .ok { flag := f, flags := { m with blocks := m.blocks + 1 }, locals := l }
      | none => .error .supplyGone

/-- Whether the supply tells about the flags that it hands out. -/
def reports : Supply → Bool
  | .paired => true
  | .isolated | .packed | .listed _ => false

end Supply

end ReaderWriter.ReadMostly
