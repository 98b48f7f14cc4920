import H8.Assembly.Style

/-! Labels in place of pointers.

A term is a tree, and a place in it is found by the numbers of the parts that
lead there. Resolving a term keeps its shape. It changes nothing but pointers
that stand directly in a reference, each according to its own kind of reference.
Terms that are the same at all places are equal, so the laws of resolving follow
from what it does at one place.
-/

set_option autoImplicit false

namespace H8.Assembly

inductive Node where
  | symbol (name : String)
  | literal (value : Literal)
  | label (label : Label)
  | reference (isCode : Bool)
  | joined (mark : String)
  | marked (mark : String)
  | tagged (mark : String)
  | wrapped (left right : String)

def Node.reference? : Node → Option Bool
  | .reference isCode => some isCode
  | _ => none

namespace Term

def node : Term → Node
  | .symbol name => .symbol name
  | .literal value => .literal value
  | .label name => .label name
  | .dataReference _ => .reference false
  | .codeReference _ => .reference true
  | .joined _ mark _ => .joined mark
  | .marked mark _ => .marked mark
  | .tagged _ mark => .tagged mark
  | .wrapped left _ right => .wrapped left right

def parts : Term → List Term
  | .symbol _ | .literal _ | .label _ => []
  | .dataReference inner | .codeReference inner => [inner]
  | .joined left _ right => [left, right]
  | .marked _ inner | .tagged inner _ => [inner]
  | .wrapped _ inner _ => inner

/-- What stands at a place, together with the kind of the reference that it stands
directly in. -/
def place? (above : Option Bool) (term : Term) : List Nat → Option (Option Bool × Node)
  | [] => some (above, term.node)
  | index :: path => term.parts[index]?.bind fun part => part.place? term.node.reference? path

theorem sizeOf_lt_of_mem_parts {term part : Term} (member : part ∈ term.parts) :
    sizeOf part < sizeOf term := by
  cases term with
  | symbol _ | literal _ | label _ => cases member
  | dataReference inner | codeReference inner | marked mark inner | tagged inner mark =>
    obtain rfl := List.mem_singleton.mp member
    simp +arith
  | joined left mark right =>
    have either : part = left ∨ part = right := by simpa [parts] using member
    rcases either with rfl | rfl <;> simp +arith
  | wrapped left inner right =>
    have smaller : sizeOf part < sizeOf inner := List.sizeOf_lt_of_mem member
    rw [wrapped.sizeOf_spec]
    omega

@[elab_as_elim]
theorem induction_parts {motive : Term → Prop}
    (step : ∀ term : Term, (∀ part ∈ term.parts, motive part) → motive term) (term : Term) :
    motive term :=
  step term fun part _ => induction_parts step part
termination_by sizeOf term
decreasing_by exact sizeOf_lt_of_mem_parts ‹_›

theorem eq_of_parts {first second : Term} (nodes : first.node = second.node)
    (parts : first.parts = second.parts) : first = second := by
  cases first <;> cases second <;> simp_all [node, Term.parts]

theorem eq_of_place? {first second : Term} {above : Option Bool}
    (same : ∀ path, first.place? above path = second.place? above path) : first = second := by
  induction first using induction_parts generalizing second above with
  | step first ih =>
    -- The empty path leads to the top, and one that begins with a number into that part.
    have nodes : first.node = second.node := congrArg Prod.snd (Option.some.inj (same []))
    refine eq_of_parts nodes (List.ext_getElem? fun index => ?_)
    have below (path : List Nat) := same (index :: path)
    simp only [place?, nodes] at below
    cases left : first.parts[index]? with
    | none =>
      cases right : second.parts[index]? with
      | none => rfl
      | some other =>
        rw [left, right] at below
        cases below []
    | some part =>
      cases right : second.parts[index]? with
      | none =>
        rw [left, right] at below
        cases below []
      | some other =>
        rw [left, right] at below
        exact congrArg some (ih part (List.mem_of_getElem? left) below)

variable (lookup : Address → Bool → Option Label)

def resolveBelow (above : Option Bool) (term : Term) : Term :=
  match above, term with
  | some isCode, .literal (.pointer address) =>
    match lookup address isCode with
    | some name => .label name
    | none => .literal (.pointer address)
  | _, term => resolve lookup term

theorem resolve_reference (inner : Term) :
    resolve lookup (.dataReference inner) = .dataReference (resolveBelow lookup (some false) inner) ∧
    resolve lookup (.codeReference inner) = .codeReference (resolveBelow lookup (some true) inner) := by
  cases inner with
  | literal value =>
    cases value with
    | pointer address =>
      simp only [resolve, resolveBelow]
      exact ⟨by cases lookup address false <;> rfl, by cases lookup address true <;> rfl⟩
    | _ => exact ⟨rfl, rfl⟩
  | _ => exact ⟨rfl, rfl⟩

theorem resolveAll_eq (terms : List Term) : resolveAll lookup terms = terms.map (resolve lookup) := by
  induction terms with
  | nil => rfl
  | cons term terms ih => rw [resolveAll, ih, List.map_cons]

theorem node_resolve (term : Term) : (resolve lookup term).node = term.node := by
  cases term with
  | dataReference inner => rw [(resolve_reference lookup inner).1]; rfl
  | codeReference inner => rw [(resolve_reference lookup inner).2]; rfl
  | _ => rfl

theorem parts_resolve (term : Term) :
    (resolve lookup term).parts = term.parts.map (resolveBelow lookup term.node.reference?) := by
  cases term with
  | dataReference inner => rw [(resolve_reference lookup inner).1]; rfl
  | codeReference inner => rw [(resolve_reference lookup inner).2]; rfl
  | wrapped left inner right => exact resolveAll_eq lookup inner
  | _ => rfl

/-- A pointer directly in a reference gives way to the label that the lookup has
for it. Anything else stays. -/
def relabelled : Option Bool × Node → Option Bool × Node
  | (some isCode, .literal (.pointer address)) =>
    (some isCode, match lookup address isCode with
      | some name => .label name
      | none => .literal (.pointer address))
  | place => place

/-- Below anything, a term is a pointer directly in a reference or resolved as it
stands alone. -/
theorem resolveBelow_cases (above : Option Bool) (term : Term) :
    (∃ isCode address, above = some isCode ∧ term = .literal (.pointer address)) ∨
      resolveBelow lookup above term = resolve lookup term ∧
        relabelled lookup (above, term.node) = (above, term.node) := by
  cases above with
  | none => exact .inr ⟨rfl, rfl⟩
  | some isCode =>
    cases term with
    | literal value =>
      cases value with
      | pointer address => exact .inl ⟨isCode, address, rfl, rfl⟩
      | _ => exact .inr ⟨rfl, rfl⟩
    | _ => exact .inr ⟨rfl, rfl⟩

theorem node_resolveBelow (above : Option Bool) (term : Term) :
    (above, (resolveBelow lookup above term).node) = relabelled lookup (above, term.node) := by
  rcases resolveBelow_cases lookup above term with ⟨isCode, address, rfl, rfl⟩ | ⟨same, stays⟩
  · simp only [resolveBelow, relabelled, node]
    cases lookup address isCode <;> rfl
  · rw [same, stays, node_resolve]

theorem parts_resolveBelow (above : Option Bool) (term : Term) :
    (resolveBelow lookup above term).node.reference? = term.node.reference? ∧
      (resolveBelow lookup above term).parts =
        term.parts.map (resolveBelow lookup term.node.reference?) := by
  rcases resolveBelow_cases lookup above term with ⟨isCode, address, rfl, rfl⟩ | ⟨same, -⟩
  · -- A label is no more a reference than the pointer, and neither has parts.
    simp only [resolveBelow]
    cases lookup address isCode <;> exact ⟨rfl, rfl⟩
  · rw [same, node_resolve]
    exact ⟨rfl, parts_resolve lookup term⟩

theorem place?_resolveBelow (above : Option Bool) (term : Term) (path : List Nat) :
    (resolveBelow lookup above term).place? above path =
      (term.place? above path).map (relabelled lookup) := by
  induction path generalizing above term with
  | nil => exact congrArg some (node_resolveBelow lookup above term)
  | cons index path ih =>
    obtain ⟨kind, parts⟩ := parts_resolveBelow lookup above term
    rw [place?, place?, kind, parts, List.getElem?_map]
    cases term.parts[index]? with
    | none => rfl
    | some part => exact ih term.node.reference? part

theorem place?_resolve (term : Term) (path : List Nat) :
    (resolve lookup term).place? none path = (term.place? none path).map (relabelled lookup) :=
  place?_resolveBelow lookup none term path

theorem resolve_none (term : Term) : resolve (fun _ _ => none) term = term := by
  have stays (place : Option Bool × Node) : relabelled (fun _ _ => none) place = place := by
    unfold relabelled
    split <;> rfl
  apply eq_of_place?
  intro path
  rw [place?_resolve, funext stays, Option.map_id']

theorem resolve_resolve (first second : Address → Bool → Option Label) (term : Term) :
    resolve second (resolve first term) =
      resolve (fun address isCode => (first address isCode).or (second address isCode)) term := by
  have both (place : Option Bool × Node) : relabelled second (relabelled first place) =
      relabelled (fun address isCode => (first address isCode).or (second address isCode)) place := by
    -- What the first lookup has named is no pointer any more, so the second leaves it alone.
    rcases place with ⟨_ | isCode, node⟩
    · rfl
    · cases node with
      | literal value =>
        cases value with
        | pointer address =>
          simp only [relabelled]
          cases first address isCode <;> rfl
        | _ => rfl
      | _ => rfl
  apply eq_of_place?
  intro path
  rw [place?_resolve, place?_resolve, place?_resolve, Option.map_map]
  exact congrArg (Option.map · _) (funext both)

end Term

/-! ### The text of a term -/

/-- A stretch of the text of a term: fixed characters, or a pointer that stands
directly in a reference. -/
inductive Stretch where
  | fixed (text : String)
  | pointer (address : Address) (isCode : Bool)

def Stretch.text (spelled : Address → Bool → String) : Stretch → String
  | .fixed text => text
  | .pointer address isCode => spelled address isCode

def spelledOut (spelled : Address → Bool → String) (stretches : List Stretch) : String :=
  String.join (stretches.map (Stretch.text spelled))

@[simp] theorem spelledOut_nil (spelled : Address → Bool → String) : spelledOut spelled [] = "" := rfl

@[simp] theorem spelledOut_cons (spelled : Address → Bool → String) (first : Stretch)
    (rest : List Stretch) :
    spelledOut spelled (first :: rest) = first.text spelled ++ spelledOut spelled rest := by
  simp [spelledOut]

@[simp] theorem spelledOut_append (spelled : Address → Bool → String) (first second : List Stretch) :
    spelledOut spelled (first ++ second) = spelledOut spelled first ++ spelledOut spelled second := by
  simp [spelledOut]

namespace Style
variable (style : Style)

mutual

def stretches : Term → List Stretch
  | .dataReference (.literal (.pointer address)) => [.pointer address false]
  | .codeReference (.literal (.pointer address)) => [.pointer address true]
  | .dataReference inner => stretches inner
  | .codeReference inner => stretches inner
  | .symbol name => [.fixed name]
  | .literal value => [.fixed (style.literal value)]
  | .label label => [.fixed label.name]
  | .joined left mark right => stretches left ++ .fixed mark :: stretches right
  | .marked mark inner => .fixed mark :: stretches inner
  | .tagged inner mark => stretches inner ++ [.fixed mark]
  | .wrapped left inner right => .fixed left :: (stretchesAll inner ++ [.fixed right])

def stretchesAll : List Term → List Stretch
  | [] => []
  | [last] => stretches last
  | first :: rest => stretches first ++ .fixed "," :: stretchesAll rest

end

/-- A pointer is spelled by its label if it has one, and by its number otherwise. -/
def pointerText (lookup : Address → Bool → Option Label) (address : Address) (isCode : Bool) : String :=
  match lookup address isCode with
  | some label => label.name
  | none => style.number address.toNat

variable (lookup : Address → Bool → Option Label)

theorem term_resolveBelow_pointer (address : Address) (isCode : Bool) :
    style.term (Term.resolveBelow lookup (some isCode) (.literal (.pointer address))) =
      style.pointerText lookup address isCode := by
  simp only [Term.resolveBelow, pointerText]
  cases lookup address isCode <;> rfl

mutual

/-- Resolving a term spells its pointers anew and keeps the stretches between them. -/
theorem term_resolve (term : Term) : style.term (Term.resolve lookup term) =
    spelledOut (style.pointerText lookup) (style.stretches term) := by
  match term with
  | .dataReference inner | .codeReference inner =>
    -- A pointer is spelled here. Any other reference is spelled as what is in it.
    by_cases pointer : ∃ address, inner = .literal (.pointer address)
    · obtain ⟨address, rfl⟩ := pointer
      simp only [Term.resolve_reference, Style.term, term_resolveBelow_pointer, stretches,
        spelledOut_cons, spelledOut_nil, String.append_empty, Stretch.text]
    · have other (address : Address) (same : inner = .literal (.pointer address)) : False :=
        pointer ⟨address, same⟩
      rw [Term.resolve, stretches]
      · exact term_resolve inner
      · exact other
      · exact other
  | .joined left mark right =>
    simp [Term.resolve, Style.term, stretches, Stretch.text, term_resolve left, term_resolve right,
      String.append_assoc]
  | .marked mark inner => simp [Term.resolve, Style.term, stretches, Stretch.text, term_resolve inner]
  | .tagged inner mark => simp [Term.resolve, Style.term, stretches, Stretch.text, term_resolve inner]
  | .wrapped left inner right =>
    simp [Term.resolve, Style.term, stretches, Stretch.text, termList_resolveAll inner,
      String.append_assoc]
  | .symbol _ | .literal _ | .label _ => simp [Term.resolve, Style.term, stretches, Stretch.text]

theorem termList_resolveAll (terms : List Term) : style.termList (Term.resolveAll lookup terms) =
    spelledOut (style.pointerText lookup) (style.stretchesAll terms) := by
  match terms with
  | [] => rfl
  | [last] => exact term_resolve last
  | first :: second :: rest =>
    have later := termList_resolveAll (second :: rest)
    rw [Term.resolveAll] at later
    simp [Term.resolveAll, Style.termList, stretchesAll, Stretch.text, term_resolve first, later,
      String.append_assoc]

end

end Style

/-- Labels in place of pointers. Without labels nothing changes, and two lookups
after one another are one that asks the second where the first has no answer. At
every place stands what stood there before, but for pointers directly in a
reference, and in the text nothing but their spelling changes. -/
theorem resolve_relabels (first second : Address → Bool → Option Label) (term : Term) :
    Term.resolve (fun _ _ => none) term = term ∧
    Term.resolve second (Term.resolve first term) =
      Term.resolve (fun address isCode => (first address isCode).or (second address isCode)) term ∧
    Term.resolve first (Term.resolve first term) = Term.resolve first term ∧
    (∀ path, (Term.resolve first term).place? none path =
      (term.place? none path).map (Term.relabelled first)) ∧
    ∀ style : Style,
      style.term term =
        spelledOut (fun address _ => style.number address.toNat) (style.stretches term) ∧
      style.term (Term.resolve first term) =
        spelledOut (style.pointerText first) (style.stretches term) := by
  have again : Term.resolve first (Term.resolve first term) = Term.resolve first term := by
    rw [Term.resolve_resolve]
    simp only [Option.or_self]
  refine ⟨term.resolve_none, Term.resolve_resolve first second term, again,
    Term.place?_resolve first term, fun style => ⟨?_, style.term_resolve first term⟩⟩
  have plain := style.term_resolve (fun _ _ => none) term
  rwa [Term.resolve_none] at plain

/-- A bare pointer stays, and a label that stands for data does not name code. -/
example :
    let lookup (address : Address) (isCode : Bool) : Option Label :=
      if address = 2 ∧ isCode = false then some ⟨"table"⟩ else none
    Term.resolve lookup (.wrapped "@(" [.dataPointer 2, .codePointer 2, .literal (.pointer 2)] ")") =
      .wrapped "@(" [.dataLabel ⟨"table"⟩, .codePointer 2, .literal (.pointer 2)] ")" :=
  rfl

end H8.Assembly
