import Orrery.Yaml.Token

/-!
# YAML nodes

The grammar over tokens.  `Document.ofTokens` accepts a text that holds one document at most.

An anchored node gets a number, the count of the names that are anchored before it, and a reference
holds the number that its name has at that place.  When a name is anchored again, a number can be given
twice; then the node that starts last has it, also for references that stand before that node.  The
table of anchors is therefore taken from the finished tree (`Node.anchored`), in the order in which the
nodes start.

Where a value, a key or an item is missing there is an empty plain scalar.

The grammar looks one token ahead and fails where no rule admits that token; the fault is then the
token's own (`Grammar.fault`).
-/

namespace Orrery

namespace Yaml

/-- What stands in front of a node. -/
structure Properties where
  /-- Its number, if references may name it. -/
  anchor : Option Nat
  /-- Its type. -/
  tag : Option Tag

/-- A node of a document. -/
inductive Node where
  /-- A reference to the node with a number. -/
  | alias (anchor : Nat)
  /-- A scalar. -/
  | scalar (properties : Properties) (text : String) (style : Style)
  /-- A list. -/
  | list (properties : Properties) (items : List Node)
  /-- A mapping, fields in the order written. -/
  | mapping (properties : Properties) (fields : List (Node × Node))

namespace Node

/-- The node that stands where nothing does. -/
def missing : Node := .scalar ⟨none, none⟩ "" .plain

/-- The entry that a node makes in the table of anchors. -/
def entry (p : Properties) (n : Node) : List (Nat × Node) :=
  match p.anchor with
  | some i => [(i, n)]
  | none => []

mutual

/-- All anchored nodes with their numbers, in the order in which they start. -/
def anchored : Node → List (Nat × Node)
  | .alias _ => []
  | .scalar p text style => entry p (.scalar p text style)
  | .list p items => entry p (.list p items) ++ anchoredItems items
  | .mapping p fields => entry p (.mapping p fields) ++ anchoredFields fields

/-- All anchored nodes of a list. -/
def anchoredItems : List Node → List (Nat × Node)
  | [] => []
  | n :: rest => anchored n ++ anchoredItems rest

/-- All anchored nodes of a mapping. -/
def anchoredFields : List (Node × Node) → List (Nat × Node)
  | [] => []
  | (k, v) :: rest => anchored k ++ (anchored v ++ anchoredFields rest)

end

mutual

/-- The size of a node: a collection counts its two ends. -/
def size : Node → Nat
  | .alias _ => 1
  | .scalar .. => 1
  | .list _ items => 2 + sizeItems items
  | .mapping _ fields => 2 + sizeFields fields

/-- The size of all items. -/
def sizeItems : List Node → Nat
  | [] => 0
  | n :: rest => size n + sizeItems rest

/-- The size of all fields. -/
def sizeFields : List (Node × Node) → Nat
  | [] => 0
  | (k, v) :: rest => size k + (size v + sizeFields rest)

end

end Node

/-! ## The grammar -/

namespace Grammar

/-- What the grammar knows while it reads. -/
structure State where
  /-- The tokens that are left. -/
  tokens : List Token
  /-- The numbers of the anchored names. -/
  names : List (String × Nat)
  /-- What the handles of tags stand for. -/
  handles : List (String × Tag)

/-- Reading a part of the grammar. -/
abbrev Reading (α : Type) := State → Except Fault (α × State)

/-- Why no rule admits the next token. -/
def fault : List Token → Fault
  | .overflow :: _ => .overflow
  | _ => .malformed

/-- A node for which nothing is written. -/
def nothing : Reading Node := fun s => .ok (.missing, s)

/-- Give the anchored name a number. -/
def register (name : String) (s : State) : Nat × State :=
  let number := s.names.length
  (number, { s with names := (name, number) :: s.names.filter fun e => e.1 ≠ name })

/-- A tag up to its first zero octet. -/
def cut (t : Tag) : Tag := t.takeWhile (· ≠ '\x00')

/-- What a tag stands for: an empty handle leaves it as it is. -/
def fullTag? (s : State) (handle : String) (suffix : Tag) : Option Tag :=
  if handle = "" then some (cut suffix)
  else (s.handles.find? fun e => e.1 = handle).map fun e => cut e.2 ++ cut suffix

/-- An anchor and a tag, in either order, both optional. -/
def properties? (s : State) : Option (Option String × Option Tag × List Token) :=
  match s.tokens with
  | .anchor a :: .tag h t :: rest => (fullTag? s h t).map fun tag => (some a, some tag, rest)
  | .anchor a :: rest => some (some a, none, rest)
  | .tag h t :: .anchor a :: rest => (fullTag? s h t).map fun tag => (some a, some tag, rest)
  | .tag h t :: rest => (fullTag? s h t).map fun tag => (none, some tag, rest)
  | rest => some (none, none, rest)

mutual

/-- A node.  Indented collections are read only if `block`, and a list whose dashes stand in the column
of the enclosing keys only if `indentless`.  On the way down, every two calls take a token. -/
def node (block indentless : Bool) : Nat → Reading Node
  | 0, _ => .error .malformed
  | fuel + 1, s =>
    match s.tokens with
    | .alias name :: rest =>
      match s.names.find? fun e => e.1 = name with
      | some e => .ok (.alias e.2, { s with tokens := rest })
      | none => .error .malformed
    | _ =>
      match properties? s with
      | none => .error .malformed
      | some (name, tag, tokens) =>
        let s := { s with tokens }
        let (anchor, s) := match name with
          | some n => let (i, s) := register n s; (some i, s)
          | none => (none, s)
        let p : Properties := ⟨anchor, tag⟩
        let withTokens (rest : List Token) : State := { s with tokens := rest }
        match tokens, block with
        | .scalar text style :: rest, _ =>
          .ok (.scalar p text style, withTokens rest)
        | .overflow :: _, _ => .error .overflow
        | .flowList :: rest, _ =>
          (flowItems true fuel (withTokens rest)).map fun (items, s) => (.list p items, s)
        | .flowMapping :: rest, _ =>
          (flowFields true fuel (withTokens rest)).map fun (fields, s) => (.mapping p fields, s)
        | .blockList :: rest, true =>
          (blockItems fuel (withTokens rest)).map fun (items, s) => (.list p items, s)
        | .blockMapping :: rest, true =>
          (blockFields fuel (withTokens rest)).map fun (fields, s) => (.mapping p fields, s)
        | .blockEntry :: _, _ =>
          if indentless then
            (indentlessItems fuel s).map fun (items, s) => (.list p items, s)
          else if name.isSome || tag.isSome then .ok (.scalar p "" .plain, s) else .error .malformed
        | _, _ =>
          if name.isSome || tag.isSome then .ok (.scalar p "" .plain, s) else .error (fault tokens)

/-- The items of an indented list. -/
def blockItems : Nat → Reading (List Node)
  | 0, _ => .error .malformed
  | fuel + 1, s =>
    match s.tokens with
    | .blockEnd :: rest => .ok ([], { s with tokens := rest })
    | .blockEntry :: rest =>
      let s := { s with tokens := rest }
      let item := match rest with
        | .blockEntry :: _ | .blockEnd :: _ => nothing s
        | _ => node true false fuel s
      match item with
      | .error e => .error e
      | .ok (n, s) => (blockItems fuel s).map fun (ns, s) => (n :: ns, s)
    | _ => .error (fault s.tokens)

/-- The items of a list whose dashes stand in the column of the enclosing keys. -/
def indentlessItems : Nat → Reading (List Node)
  | 0, _ => .error .malformed
  | fuel + 1, s =>
    match s.tokens with
    | .blockEntry :: rest =>
      let s := { s with tokens := rest }
      let item := match rest with
        | .blockEntry :: _ | .key :: _ | .value :: _ | .blockEnd :: _ => nothing s
        | _ => node true false fuel s
      match item with
      | .error e => .error e
      | .ok (n, s) => (indentlessItems fuel s).map fun (ns, s) => (n :: ns, s)
    | _ => .ok ([], s)

/-- The fields of an indented mapping. -/
def blockFields : Nat → Reading (List (Node × Node))
  | 0, _ => .error .malformed
  | fuel + 1, s =>
    match s.tokens with
    | .blockEnd :: rest => .ok ([], { s with tokens := rest })
    | .key :: rest =>
      let s := { s with tokens := rest }
      let key := match rest with
        | .key :: _ | .value :: _ | .blockEnd :: _ => nothing s
        | _ => node true true fuel s
      match key with
      | .error e => .error e
      | .ok (k, s) =>
        let value := match s.tokens with
          | .value :: rest =>
            let s := { s with tokens := rest }
            match rest with
            | .key :: _ | .value :: _ | .blockEnd :: _ => nothing s
            | _ => node true true fuel s
          | _ => nothing s
        match value with
        | .error e => .error e
        | .ok (v, s) => (blockFields fuel s).map fun (fs, s) => ((k, v) :: fs, s)
    | _ => .error (fault s.tokens)

/-- The items of a bracketed list.  An item with a key is a mapping of one field; when the key itself
is missing, the token that shows it is used up. -/
def flowItems (first : Bool) : Nat → Reading (List Node)
  | 0, _ => .error .malformed
  | fuel + 1, s =>
    match s.tokens, first with
    | .flowListEnd :: rest, _ => .ok ([], { s with tokens := rest })
    | .flowEntry :: .flowListEnd :: rest, false => .ok ([], { s with tokens := rest })
    | tokens, _ =>
      let here := match first, tokens with
        | true, ts => some ts
        | false, .flowEntry :: ts => some ts
        | false, _ => none
      match here with
      | none => .error (fault tokens)
      | some (.key :: rest) =>
        let s := { s with tokens := rest }
        let key := match rest with
          | .value :: rest | .flowEntry :: rest | .flowListEnd :: rest =>
            nothing { s with tokens := rest }
          | _ => node false false fuel s
        match key with
        | .error e => .error e
        | .ok (k, s) =>
          let value := match s.tokens with
            | .value :: rest =>
              let s := { s with tokens := rest }
              match rest with
              | .flowEntry :: _ | .flowListEnd :: _ => nothing s
              | _ => node false false fuel s
            | _ => nothing s
          match value with
          | .error e => .error e
          | .ok (v, s) =>
            (flowItems false fuel s).map fun (ns, s) => (.mapping ⟨none, none⟩ [(k, v)] :: ns, s)
      | some tokens =>
        match node false false fuel { s with tokens } with
        | .error e => .error e
        | .ok (n, s) => (flowItems false fuel s).map fun (ns, s) => (n :: ns, s)

/-- The fields of a braced mapping; a field without a key mark has no value. -/
def flowFields (first : Bool) : Nat → Reading (List (Node × Node))
  | 0, _ => .error .malformed
  | fuel + 1, s =>
    match s.tokens, first with
    | .flowMappingEnd :: rest, _ => .ok ([], { s with tokens := rest })
    | .flowEntry :: .flowMappingEnd :: rest, false => .ok ([], { s with tokens := rest })
    | tokens, _ =>
      let here := match first, tokens with
        | true, ts => some ts
        | false, .flowEntry :: ts => some ts
        | false, _ => none
      match here with
      | none => .error (fault tokens)
      | some (.key :: rest) =>
        let s := { s with tokens := rest }
        let key := match rest with
          | .value :: _ | .flowEntry :: _ | .flowMappingEnd :: _ => nothing s
          | _ => node false false fuel s
        match key with
        | .error e => .error e
        | .ok (k, s) =>
          let value := match s.tokens with
            | .value :: rest =>
              let s := { s with tokens := rest }
              match rest with
              | .flowEntry :: _ | .flowMappingEnd :: _ => nothing s
              | _ => node false false fuel s
            | _ => nothing s
          match value with
          | .error e => .error e
          | .ok (v, s) => (flowFields false fuel s).map fun (fs, s) => ((k, v) :: fs, s)
      | some tokens =>
        match node false false fuel { s with tokens } with
        | .error e => .error e
        | .ok (k, s) => (flowFields false fuel s).map fun (fs, s) => ((k, .missing) :: fs, s)

end

/-! ## Documents -/

/-- The handles that need no directive. -/
def standardHandles : List (String × Tag) :=
  [("!", ['!']), ("!!", "tag:yaml.org,2002:".toList)]

/-- The directives before a document: one version at most, which is 1.1 or 1.2, and every handle once. -/
def directives? (versioned : Bool) (handles : List (String × Tag)) :
    List Token → Option (List (String × Tag) × List Token)
  | .version major minor :: rest =>
    if !versioned && major = 1 && (minor = 1 || minor = 2) then directives? true handles rest else none
  | .shorthand handle start :: rest =>
    if handles.any fun e => e.1 = handle then none
    else directives? versioned (handles ++ [(handle, start)]) rest
  | rest => some (handles ++ standardHandles, rest)

/-- Nothing is left but marks that a document has ended. -/
def isEnd : List Token → Bool
  | [] => true
  | .documentEnd :: rest => isEnd rest
  | _ => false

/-- No node follows a mark that a document starts. -/
def isBare : List Token → Bool
  | [] | .documentStart :: _ | .documentEnd :: _ | .version .. :: _ | .shorthand .. :: _ => true
  | _ => false

end Grammar

/-- A document. -/
structure Document where
  /-- Its only node; a text without a document counts as a document without content. -/
  root : Node
  /-- The anchored nodes with their numbers; of two with one number the last counts. -/
  anchors : List (Nat × Node)
  /-- The size of the document. -/
  size : Nat

namespace Document

/-- The document of a node. -/
def ofNode (n : Node) : Document := ⟨n, n.anchored, n.size⟩

/-- The node with a number. -/
def node? (d : Document) (anchor : Nat) : Option Node :=
  (d.anchors.reverse.find? fun e => e.1 = anchor).map (·.2)

/-- The only document that tokens make. -/
def ofTokens (tokens : List Token) : Except Fault Document :=
  let read (handles : List (String × Tag)) (tokens : List Token) : Except Fault Document :=
    match Grammar.node true false (3 * tokens.length + 3) ⟨tokens, [], handles⟩ with
    | .ok (n, s) => if Grammar.isEnd s.tokens then .ok (ofNode n) else .error (Grammar.fault s.tokens)
    | .error e => .error e
  match tokens with
  | [] => .ok (ofNode .missing)
  | .version .. :: _ | .shorthand .. :: _ | .documentStart :: _ =>
    match Grammar.directives? false [] tokens with
    | some (handles, .documentStart :: rest) =>
      if Grammar.isBare rest then
        if Grammar.isEnd rest then .ok (ofNode .missing) else .error .malformed
      else read handles rest
    | some (_, rest) => .error (Grammar.fault rest)
    | none => .error .malformed
  | tokens => read Grammar.standardHandles tokens

end Document

end Yaml

end Orrery
