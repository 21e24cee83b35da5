import Schematic.Value.Basic

/-!
# Room on the stack

Texts are read and trees are written by calls inside calls, some for every list or mapping that
goes deeper, and an interpreter lets only so many calls be open at once. So how deeply a text may
be nested is not a property of the text alone: it depends on how far down the reader is called. The
limits are a parameter here. All that is known of them is that each call further down leaves no more
room than there was.

Only nesting takes room. Calls that go no deeper are taken to have the room they need, and so is
drawing, which goes down a tree in fewer calls than it took to read it.

## Main definitions

- `Room` — how deeply texts and trees may be nested at one place of the program
- `Stack`, `Stack.below` — the room there is some calls further down
- `Stack.ofCalls`, `Stack.standard` — stacks that hold a number of calls
-/

namespace Schematic

/-- How deeply texts and trees may be nested at one place of the program. What a level takes
depends on what stands there, so the limits depend on the whole text or tree. -/
structure Room where
  /-- The most lists and mappings inside each other in a text that is read as JSON. -/
  json : String → Nat
  /-- The most collections around a node in a text that is read as YAML, and around a datum once
  the aliases stand for what they name. -/
  yaml : String → Nat
  /-- The most lists and mappings inside each other in a tree that is written as JSON. -/
  written : Value → Nat
  /-- One level is room enough for what goes no deeper. -/
  written_pos : ∀ tree, 0 < written tree

namespace Room

/-- No more room for any text or tree. -/
structure Le (room more : Room) : Prop where
  json : ∀ text, room.json text ≤ more.json text
  yaml : ∀ text, room.yaml text ≤ more.yaml text
  written : ∀ tree, room.written tree ≤ more.written tree

instance : LE Room := ⟨Le⟩

end Room

/-- The stack as a function finds it. -/
structure Stack where
  /-- The room that is left this many calls further down. -/
  room : Nat → Room
  /-- Calls leave no more room than there was. -/
  room_le : ∀ {m n : Nat}, m ≤ n → room n ≤ room m

namespace Stack

/-- The stack as a function finds it that is called this many calls further down. -/
def below (stack : Stack) (calls : Nat) : Stack where
  room n := stack.room (calls + n)
  room_le h := stack.room_le (Nat.add_le_add_left h calls)

/-- A stack that holds a number of calls inside the outermost level of a text or tree. A level of
JSON takes one of them, read or written. A level of YAML takes four: two that look up the node and
its tag, and two that build it. -/
def ofCalls (calls : Nat) : Stack where
  room n :=
    { json := fun _ => calls - n + 1
      yaml := fun _ => (calls - n) / 4
      written := fun _ => calls - n + 1
      written_pos := fun _ => Nat.succ_pos _ }
  room_le h :=
    have hcalls := Nat.sub_le_sub_left h calls
    ⟨fun _ => Nat.succ_le_succ hcalls, fun _ => Nat.div_le_div_right hcalls,
      fun _ => Nat.succ_le_succ hcalls⟩

/-- The stack of an interpreter that lets a thousand calls be open, as a function finds it that a
program calls first. Seven of them are open inside the outermost level: the program, the function,
the library and the level itself. -/
def standard : Stack :=
  ofCalls 993

end Stack

end Schematic
