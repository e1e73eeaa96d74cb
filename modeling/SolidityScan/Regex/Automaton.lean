/-
# Patterns as automata

A pattern without lookaround is a graph whose nodes consume a character, check a place, or fork.
From a node the forks are followed in order of preference, and no node is entered twice at the same
place, so a loop cannot run in a circle without consuming anything.
-/
import SolidityScan.Regex.Site

namespace SolidityScan

/-- A node of an automaton; other nodes are named by their numbers. -/
inductive Node where
  | accept
  | char (s : CharSet) (next : Nat)
  | assert (a : Assertion) (next : Nat)
  | fork (targets : List Nat)

/-- A graph of nodes with a node to start from. -/
structure Automaton where
  nodes : Array Node
  start : Nat

namespace Automaton

/-! ## Building -/

/-- The node that a part starts with, and all nodes so far. -/
abbrev Part := Nat × Array Node

/-- Adds a node. -/
def addNode (nodes : Array Node) (n : Node) : Part :=
  (nodes.size, nodes.push n)

/-- A fork between another round of a loop and the way out. -/
def loopFork (greedy : Bool) (round out : Nat) : Node :=
  .fork (if greedy then [round, out] else [out, round])

/-- Adds a loop of one or more rounds; `body` adds the nodes of a round that leads to the given
node.  The result is the first node of a round, the fork after it, and all nodes. -/
def addLoop (body : Part → Part) (greedy : Bool) (out : Nat) (nodes : Array Node) :
    Nat × Nat × Array Node :=
  let fork := nodes.size
  let (round, nodes) := body (fork, nodes.push .accept)
  (round, fork, nodes.setIfInBounds fork (loopFork greedy round out))

/-- Adds up to `count` rounds, each of which may be the last. -/
def addOptional (body : Part → Part) (greedy : Bool) (out count : Nat) (nodes : Array Node) :
    Part :=
  Nat.repeat
    (fun part =>
      let (round, nodes) := body part
      addNode nodes (loopFork greedy round out))
    count (out, nodes)

/-- Adds the nodes of a pattern that leads to the given node. -/
def build : Regex → Part → Part
  | .empty, part => part
  | .char s, (next, nodes) => addNode nodes (.char s next)
  | .assert a, (next, nodes) => addNode nodes (.assert a next)
  | .seq a b, part => build a (build b part)
  | .alt a b, (next, nodes) =>
    let (second, nodes) := build b (next, nodes)
    let (first, nodes) := build a (next, nodes)
    addNode nodes (.fork [first, second])
  | .rep e least (some most) greedy, (next, nodes) =>
    Nat.repeat (build e) least (addOptional (build e) greedy next (most - least) nodes)
  | .rep e 0 none greedy, (next, nodes) =>
    let (round, fork, nodes) := addLoop (build e) greedy next nodes
    if 0 < e.leastWidth then (fork, nodes) else addNode nodes (loopFork greedy round next)
  | .rep e (least + 1) none greedy, (next, nodes) =>
    let (round, _, nodes) := addLoop (build e) greedy next nodes
    Nat.repeat (build e) least (round, nodes)
  | .group _ e, part => build e part
  | .atomic e, part => build e part
  | .look _ _ _, part => part

/-- The automaton of a pattern. -/
def ofRegex (e : Regex) : Automaton :=
  let (start, nodes) := build e (0, #[.accept])
  { nodes, start }

/-! ## Running -/

/-- The number of nodes that one can be led to, counted along every fork. -/
def size (a : Automaton) : Nat :=
  a.nodes.foldl (fun n node => match node with
    | .fork targets => n + targets.length
    | _ => n + 1) 1

/-- Where the preferred match stops that starts at the first of the waiting nodes that has one.
`later` tells this for the place after the next character. -/
def explore (a : Automaton) (s : Site) (later : Array (Option Nat)) :
    Nat → Array Bool → List Nat → Option Nat
  | 0, _, _ => none
  | _ + 1, _, [] => none
  | fuel + 1, seen, q :: waiting =>
    if seen.getD q true then
      a.explore s later fuel seen waiting
    else
      let seen := seen.setIfInBounds q true
      match a.nodes[q]? with
      | none => a.explore s later fuel seen waiting
      | some .accept => some s.offset
      | some (.char set next) =>
        match if s.after.any set.contains then later.getD next none else none with
        | some stop => some stop
        | none => a.explore s later fuel seen waiting
      | some (.assert check next) =>
        a.explore s later fuel seen (if check.holds s then next :: waiting else waiting)
      | some (.fork targets) => a.explore s later fuel seen (targets ++ waiting)

/-- Where the preferred match from a node stops. -/
def stop? (a : Automaton) (s : Site) (later : Array (Option Nat)) (q : Nat) : Option Nat :=
  a.explore s later (a.size + 1) (Array.replicate a.nodes.size false) [q]

/-- Where the preferred match stops from each node that the character before the place leads to. -/
def stops (a : Automaton) (s : Site) (later : Array (Option Nat)) : Array (Option Nat) :=
  a.nodes.foldl
    (fun found node => match node with
      | .char set next =>
        if s.before.any set.contains then found.setIfInBounds next (a.stop? s later next) else found
      | _ => found)
    (Array.replicate a.nodes.size none)

/-- The outcome of the automaton at every place, found from the last place to the first. -/
def cells (a : Automaton) (sites : List Site) : List Cell :=
  (sites.foldr
    (fun s (later, cells) =>
      (a.stops s later, ⟨s.offset, ⟨a.stop? s later a.start, 0⟩⟩ :: cells))
    (Array.replicate a.nodes.size none, [])).2

end Automaton

end SolidityScan
