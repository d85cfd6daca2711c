import Mathlib.Data.List.Infix
import Mathlib.Logic.Function.Basic
import CCattler.Go.Strings

/-! # The prefix trie

A node is known by the path of bytes leading to it, so the pointer walks of the source
become descents along a path.
-/

namespace CCattler.Store

open Go

/-- Children by next byte, the key that ends here, and the count of the subtree. -/
inductive TrieNode where
  | mk (children : UInt8 → Option TrieNode) (factKey : Str) (subtreeCount : Int)

namespace TrieNode

def children : TrieNode → UInt8 → Option TrieNode
  | mk children _ _ => children

def factKey : TrieNode → Str
  | mk _ factKey _ => factKey

def subtreeCount : TrieNode → Int
  | mk _ _ subtreeCount => subtreeCount

/-- `&trieNode{children: make(map[byte]*trieNode)}`. -/
def fresh : TrieNode := mk (fun _ => none) [] 0

def setChild (node : TrieNode) (b : UInt8) (child : Option TrieNode) : TrieNode :=
  mk (Function.update node.children b child) node.factKey node.subtreeCount

def setFactKey (node : TrieNode) (key : Str) : TrieNode :=
  mk node.children key node.subtreeCount

def addCount (node : TrieNode) (delta : Int) : TrieNode :=
  mk node.children node.factKey (node.subtreeCount + delta)

/-- Bytes in the order in which `collectSorted` tries them. -/
def allBytes : List UInt8 := (List.range 256).map UInt8.ofNat

/-- `len(node.children) == 0`. -/
def childless (node : TrieNode) : Bool := allBytes.all (fun b => (node.children b).isNone)

def descend (node : TrieNode) : Str → Option TrieNode
  | [] => some node
  | b :: rest => (node.children b).bind (fun child => child.descend rest)

def ensurePath (node : TrieNode) : Str → TrieNode
  | [] => node
  | b :: rest => node.setChild b (some (((node.children b).getD fresh).ensurePath rest))

def modifyAt (f : TrieNode → TrieNode) (node : TrieNode) : Str → TrieNode
  | [] => f node
  | b :: rest =>
    match node.children b with
    | none => node
    | some child => node.setChild b (some (child.modifyAt f rest))

def modifyAlong (f : TrieNode → TrieNode) (node : TrieNode) : Str → TrieNode
  | [] => f node
  | b :: rest =>
    match node.children b with
    | none => f node
    | some child => (f node).setChild b (some (child.modifyAlong f rest))

mutual

def collectSorted : TrieNode → List Str
  | mk children factKey _ =>
    (if factKey ≠ [] then [factKey] else []) ++
      allBytes.flatMap (fun b => collectChild (children b))

def collectChild : Option TrieNode → List Str
  | none => []
  | some child => collectSorted child

end

end TrieNode

open TrieNode

/-- `prefixTrie`: the root node. -/
structure PrefixTrie where
  root : TrieNode

namespace PrefixTrie

/-- `newPrefixTrie`. -/
def new : PrefixTrie := ⟨fresh⟩

variable (trie : PrefixTrie)

def incrementAncestors (key : Str) : PrefixTrie :=
  ⟨trie.root.modifyAlong (fun node => node.addCount 1) key⟩

def decrementAncestors (key : Str) : PrefixTrie :=
  ⟨trie.root.modifyAlong (fun node => node.addCount (-1)) key⟩

protected def insert (key : Str) : PrefixTrie :=
  let grown := trie.root.ensurePath key
  match grown.descend key with
  | none => ⟨grown⟩
  | some currentNode =>
    -- the empty key leaves its node empty, so it is counted every time
    if currentNode.factKey = [] then
      incrementAncestors ⟨grown.modifyAt (fun node => node.setFactKey key) key⟩ key
    else ⟨grown⟩

/-- The upward loop of `pruneEmptyBranch`, at the given depth of the path. -/
def pruneFrom (key : Str) : Nat → PrefixTrie → PrefixTrie
  | 0, trie => trie
  | depth + 1, trie =>
    match trie.root.descend (key.take (depth + 1)), key[depth]? with
    | some node, some b =>
      -- the first node still in use keeps its ancestors
      if node.factKey ≠ [] ∨ node.childless = false then trie
      else pruneFrom key depth
        ⟨trie.root.modifyAt (fun parent => parent.setChild b none) (key.take depth)⟩
    | _, _ => trie

def pruneEmptyBranch (key : Str) : PrefixTrie :=
  pruneFrom key key.length trie

def remove (key : Str) : PrefixTrie × Bool :=
  match trie.root.descend key with
  | none => (trie, false)
  | some currentNode =>
    if currentNode.factKey = [] then (trie, false)
    else
      let cleared : PrefixTrie :=
        ⟨trie.root.modifyAt (fun node => node.setFactKey []) key⟩
      ((cleared.decrementAncestors key).pruneEmptyBranch key, true)

def keysWithPrefix (scanPrefix : Str) : List Str :=
  match trie.root.descend scanPrefix with
  | none => []
  | some currentNode =>
    if currentNode.subtreeCount = 0 ∧ currentNode.factKey = [] then []
    else currentNode.collectSorted

end PrefixTrie

end CCattler.Store
