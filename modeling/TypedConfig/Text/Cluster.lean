import TypedConfig.Text.Width

namespace TypedConfig.Text

def joiner : Char := '\u200d'

def emojiSelector : Char := '\ufe0f'

def widening : Option Char → Nat
  | some c => if isAmong narrowEmojiRanges c then 1 else 0
  | none => 0

def widthAfter (last : Option Char) : List Char → Nat
  | [] => 0
  | c :: rest =>
    if c = joiner then
      match rest with
      | [] => 0
      | _ :: rest => widthAfter last rest
    else if c = emojiSelector then widening last + widthAfter none rest
    else
      match cells c with
      | 0 => widthAfter last rest
      | count + 1 => count + 1 + widthAfter (some c) rest

def width (cs : List Char) : Nat :=
  widthAfter none cs

structure Cluster where
  text : List Char
  cells : Nat
  deriving DecidableEq, Repr

def Cluster.extend (cluster : Cluster) (cs : List Char) (more : Nat) : Cluster :=
  ⟨cluster.text ++ cs, cluster.cells + more⟩

def clustersAfter (current : Cluster) (last : Option Char) : List Char → List Cluster
  | [] => [current]
  | c :: rest =>
    if c = joiner then
      match rest with
      | [] => [current.extend [c] 0]
      | tied :: rest => clustersAfter (current.extend [c, tied] 0) last rest
    else if c = emojiSelector then
      let more := widening last
      clustersAfter (current.extend [c] more) (if more = 0 then last else none) rest
    else
      match cells c with
      | 0 => clustersAfter (current.extend [c] 0) last rest
      | count + 1 => current :: clustersAfter ⟨[c], count + 1⟩ (some c) rest

/-- The clusters of a text in their order. Each takes cells, but marks at the very beginning make
one that takes none. -/
def clusters : List Char → List Cluster
  | [] => []
  | c :: rest => clustersAfter ⟨[c], cells c⟩ (if cells c = 0 then none else some c) rest

end TypedConfig.Text
