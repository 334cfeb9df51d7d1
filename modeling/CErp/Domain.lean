/-
Search domains: the JSON a client sends and the tree it is parsed into.

`domainFromJson` is the stack parser of prefix notation.  It is an instance of
the machine of `PrefixStack` (`parseItems_eq_run`), so programs that were
concatenated before parsing are compared by that library's rules.
-/
import CErp.Json
import CErp.PrefixStack

namespace CErp

open List PrefixStack

/-! ### Domain trees -/

/-- A single (field, operator, value) triple. -/
structure DomainLeaf where
  field : String
  op : String
  value : Json
  deriving Inhabited

/-- A leaf or a logical combinator. -/
inductive DomainNode where
  | leaf (l : DomainLeaf)
  | and (children : List DomainNode)
  | or (children : List DomainNode)
  | not (child : DomainNode)
  deriving Inhabited

/-- A parsed domain.  The default one is empty: it restricts nothing. -/
structure Domain where
  root : DomainNode := .and []

def Domain.isEmpty (d : Domain) : Bool :=
  match d.root with
  | .and [] => true
  | _ => false

/-! ### Parsing -/

/-- A leaf item: an array of a field name, an operator and a value. -/
def parseLeaf (item : Json) : Except String DomainNode :=
  match item with
  | .arr [field, op, value] =>
      match field.getString, op.getString with
      | .ok f, .ok o => .ok (.leaf ⟨f, o, value⟩)
      | .error e, _ => .error e
      | _, .error e => .error e
  | _ => .error "domainFromJson: leaf must be [field, op, value]"

/-- One item against the stack, whose top is the head of the list. -/
def pushItem (stack : List DomainNode) (item : Json) : Except String (List DomainNode) :=
  match item with
  | .str op =>
      if op = "&" then
        match stack with
        | r :: l :: rest => .ok (.and [l, r] :: rest)
        | _ => .error "domainFromJson: '&' needs 2 operands"
      else if op = "|" then
        match stack with
        | r :: l :: rest => .ok (.or [l, r] :: rest)
        | _ => .error "domainFromJson: '|' needs 2 operands"
      else if op = "!" then
        match stack with
        | operand :: rest => .ok (.not operand :: rest)
        | [] => .error "domainFromJson: '!' needs 1 operand"
      else .error ("domainFromJson: unknown operator '" ++ op ++ "'")
  | item =>
      match parseLeaf item with
      | .ok node => .ok (node :: stack)
      | .error e => .error e

/-- The stack after all items, read from the right. -/
def parseItems (items : List Json) : Except String (List DomainNode) :=
  items.reverse.foldlM pushItem []

/-- Several top-level nodes are an implicit AND, in the order of the stack
from its bottom. -/
def domainOfStack : List DomainNode → Domain
  | [node] => ⟨node⟩
  | stack => ⟨.and stack.reverse⟩

/-- Parse a JSON array into a domain.  What is no array, or an empty one, is
the empty domain. -/
def domainFromJson (j : Json) : Except String Domain :=
  match j with
  | .arr (item :: items) => (parseItems (item :: items)).map domainOfStack
  | _ => .ok {}

/-! ### The parser as a prefix-stack machine -/

/-- How many operands an item takes. -/
def itemArity : Json → Except String ℕ
  | .str op =>
      if op = "&" then .ok 2
      else if op = "|" then .ok 2
      else if op = "!" then .ok 1
      else .error ("domainFromJson: unknown operator '" ++ op ++ "'")
  | item => (parseLeaf item).map fun _ => 0

/-- The node an item builds from its operands, the top of the stack first. -/
def itemNode (item : Json) (operands : List DomainNode) : DomainNode :=
  match item with
  | .str op =>
      if op = "&" then .and operands.reverse
      else if op = "|" then .or operands.reverse
      else .not (operands.headD default)
  | item =>
      match parseLeaf item with
      | .ok node => node
      | .error _ => default

def itemShort : Json → String
  | .str op =>
      if op = "&" then "domainFromJson: '&' needs 2 operands"
      else if op = "|" then "domainFromJson: '|' needs 2 operands"
      else "domainFromJson: '!' needs 1 operand"
  | _ => ""

/-- Operators and leaves as tokens of a prefix-stack machine. -/
def domainSignature : Signature Json DomainNode String where
  arity := itemArity
  build := itemNode
  short := itemShort

lemma pushItem_eq_step (stack : List DomainNode) (item : Json) :
    pushItem stack item = domainSignature.step item stack := by
  simp only [Signature.step, domainSignature]
  cases item with
  | str op =>
      by_cases hand : op = "&"
      · -- binary: the stack has fewer than two values, or two on top
        subst hand
        rcases stack with - | ⟨r, - | ⟨l, rest⟩⟩ <;> simp [pushItem, itemArity, itemNode, itemShort]
      · by_cases hor : op = "|"
        · subst hor
          rcases stack with - | ⟨r, - | ⟨l, rest⟩⟩ <;>
            simp [pushItem, itemArity, itemNode, itemShort]
        · by_cases hnot : op = "!"
          · subst hnot
            rcases stack with - | ⟨operand, rest⟩ <;>
              simp [pushItem, itemArity, itemNode, itemShort]
          · simp [pushItem, itemArity, hand, hor, hnot]
  | _ =>
      simp only [pushItem, itemArity, itemNode]
      split <;> simp_all [Except.map]

lemma parseItems_eq_run (items : List Json) : parseItems items = domainSignature.run items := by
  unfold parseItems Signature.run
  rw [foldlM_reverse]
  induction items with
  | nil => rfl
  | cons item items ih =>
      rw [foldrM_cons, ih, runOn_cons]
      rcases domainSignature.runOn items [] with e | stack
      · rfl
      · exact pushItem_eq_step stack item

/-- A combinator is larger than its operands. -/
lemma sizeOf_lt_build {item : Json} {n : ℕ} {operands : List DomainNode} {x : DomainNode}
    (ha : domainSignature.arity item = .ok n) (hlen : operands.length = n)
    (hx : x ∈ operands) : sizeOf x < sizeOf (domainSignature.build item operands) := by
  have hrev : sizeOf x < sizeOf operands.reverse :=
    sizeOf_lt_of_mem (mem_reverse.mpr hx)
  simp only [domainSignature] at ha ⊢
  cases item with
  | str op =>
      simp only [itemArity, itemNode] at ha ⊢
      by_cases hand : op = "&"
      · rw [if_pos hand, DomainNode.and.sizeOf_spec]
        omega
      · by_cases hor : op = "|"
        · rw [if_neg hand, if_pos hor, DomainNode.or.sizeOf_spec]
          omega
        · rw [if_neg hand, if_neg hor, DomainNode.not.sizeOf_spec]
          rw [if_neg hand, if_neg hor] at ha
          split at ha
          · rw [Except.ok.injEq] at ha
            obtain ⟨y, rfl⟩ : ∃ y, operands = [y] := length_eq_one_iff.mp (by omega)
            obtain rfl := mem_singleton.mp hx
            rw [headD_cons]
            omega
          · cases ha
  | _ =>
      -- a leaf takes no operands
      simp only [itemArity, Except.map] at ha
      split at ha
      · cases ha
      · rw [Except.ok.injEq] at ha
        rw [← ha] at hlen
        rw [length_eq_zero_iff.mp hlen] at hx
        cases hx

end CErp
