import Orchestration.Expression.Arithmetic
import Orchestration.Proofs.Remainders

/-!
# Formulas

Arithmetic as trees that keep what stands in the text: sums of products of signed operands, with every
sign and every pair of parentheses. The operations of one rank lean to the left. A formula may have
anything at its leaves, so that formulas over variables and formulas over doubles are of one kind.

A list of tokens is read exactly when it is the list of a formula over doubles whose leaves stand under
fewer signs and parentheses than there are levels, and what is read is the tree of that formula.
-/

namespace Orchestration.Arithmetic

/-- Where a formula may stand, from the loosest binding to the tightest. -/
inductive Rank where
  | sum
  | product
  | signed

/-- The rank of what an operation makes. -/
def Operation.rank : Operation → Rank
  | .add | .subtract => .sum
  | .multiply | .divide | .remainder => .product

/-- The token of an operation. -/
def Operation.sign : Operation → Token
  | .add => .plus
  | .subtract => .minus
  | .multiply => .times
  | .divide => .divided
  | .remainder => .modulo

/-- What an operation is: the one of doubles that its sign is read as. -/
noncomputable def Operation.meaning : Operation → Float → Float → Float
  | .add => fun left right => left + right
  | .subtract => fun left right => left - right
  | .multiply => fun left right => left * right
  | .divide => fun left right => left / right
  | .remainder => Binary64.exactRemainder

/-- What is computed for an operation is what it is. -/
theorem Operation.apply_eq (operation : Operation) : operation.apply = operation.meaning := by
  funext left right
  cases operation with
  | add | subtract | multiply | divide => rfl
  | remainder => exact Binary64.remainder_eq left right

/-- The formulas of each rank. -/
inductive Formula (Leaf : Type) : Rank → Type where
  | leaf (leaf : Leaf) : Formula Leaf .signed
  | negated (inner : Formula Leaf .signed) : Formula Leaf .signed
  | affirmed (inner : Formula Leaf .signed) : Formula Leaf .signed
  | group (inner : Formula Leaf .sum) : Formula Leaf .signed
  | factor (signed : Formula Leaf .signed) : Formula Leaf .product
  | scaled (operation : Operation) (multiplicative : operation.rank = .product)
      (front : Formula Leaf .product) (last : Formula Leaf .signed) : Formula Leaf .product
  | term (product : Formula Leaf .product) : Formula Leaf .sum
  | added (operation : Operation) (additive : operation.rank = .sum)
      (front : Formula Leaf .sum) (last : Formula Leaf .product) : Formula Leaf .sum

namespace Formula

variable {Leaf Other Symbol : Type} {rank : Rank}

/-- The symbols of a formula in their order, given those of its leaves and the one of each sign. -/
def symbols (leaf : Leaf → List Symbol) (sign : Token → Symbol) :
    {rank : Rank} → Formula Leaf rank → List Symbol
  | _, .leaf token => leaf token
  | _, .negated inner => sign .minus :: inner.symbols leaf sign
  | _, .affirmed inner => sign .plus :: inner.symbols leaf sign
  | _, .group inner => sign .opening :: (inner.symbols leaf sign ++ [sign .closing])
  | _, .factor signed => signed.symbols leaf sign
  | _, .scaled operation _ front last =>
      front.symbols leaf sign ++ sign operation.sign :: last.symbols leaf sign
  | _, .term product => product.symbols leaf sign
  | _, .added operation _ front last =>
      front.symbols leaf sign ++ sign operation.sign :: last.symbols leaf sign

/-- The value of a formula, given those of its leaves. -/
noncomputable def value (leaf : Leaf → Float) : {rank : Rank} → Formula Leaf rank → Float
  | _, .leaf token => leaf token
  | _, .negated inner => -inner.value leaf
  | _, .affirmed inner => inner.value leaf
  | _, .group inner => inner.value leaf
  | _, .factor signed => signed.value leaf
  | _, .scaled operation _ front last => operation.meaning (front.value leaf) (last.value leaf)
  | _, .term product => product.value leaf
  | _, .added operation _ front last => operation.meaning (front.value leaf) (last.value leaf)

/-- The largest number of signs and parentheses that a leaf of a formula stands under. -/
def depth : {rank : Rank} → Formula Leaf rank → Nat
  | _, .leaf _ => 0
  | _, .negated inner => inner.depth + 1
  | _, .affirmed inner => inner.depth + 1
  | _, .group inner => inner.depth + 1
  | _, .factor signed => signed.depth
  | _, .scaled _ _ front last => max front.depth last.depth
  | _, .term product => product.depth
  | _, .added _ _ front last => max front.depth last.depth

/-- The tokens of a formula over doubles. -/
def tokens (formula : Formula Float rank) : List Token :=
  formula.symbols (fun value => [.numeral value]) id

/-- The tree that a formula is read as. -/
def tree : {rank : Rank} → Formula Float rank → Tree
  | _, .leaf value => .numeral value
  | _, .negated inner => .negated inner.tree
  | _, .affirmed inner => inner.tree
  | _, .group inner => inner.tree
  | _, .factor signed => signed.tree
  | _, .scaled operation _ front last => .combined operation front.tree last.tree
  | _, .term product => product.tree
  | _, .added operation _ front last => .combined operation front.tree last.tree

/-- The leaves of a formula from left to right. -/
def leaves : {rank : Rank} → Formula Leaf rank → List Leaf
  | _, .leaf token => [token]
  | _, .negated inner => inner.leaves
  | _, .affirmed inner => inner.leaves
  | _, .group inner => inner.leaves
  | _, .factor signed => signed.leaves
  | _, .scaled _ _ front last => front.leaves ++ last.leaves
  | _, .term product => product.leaves
  | _, .added _ _ front last => front.leaves ++ last.leaves

/-- A formula with a signed formula in place of each leaf. -/
def bind (replace : Leaf → Formula Other .signed) : {rank : Rank} → Formula Leaf rank → Formula Other rank
  | _, .leaf token => replace token
  | _, .negated inner => .negated (inner.bind replace)
  | _, .affirmed inner => .affirmed (inner.bind replace)
  | _, .group inner => .group (inner.bind replace)
  | _, .factor signed => .factor (signed.bind replace)
  | _, .scaled operation multiplicative front last =>
      .scaled operation multiplicative (front.bind replace) (last.bind replace)
  | _, .term product => .term (product.bind replace)
  | _, .added operation additive front last =>
      .added operation additive (front.bind replace) (last.bind replace)

section Replacing

variable {replace : Leaf → Formula Other .signed} (formula : Formula Leaf rank)

/-- The symbols of a formula with its leaves replaced are those of the replacements, in their places. -/
theorem symbols_bind (leaf : Other → List Symbol) (sign : Token → Symbol) :
    (formula.bind replace).symbols leaf sign =
      formula.symbols (fun token => (replace token).symbols leaf sign) sign := by
  induction formula <;> simp_all [bind, symbols]

/-- A formula with its leaves replaced has the value of one whose leaves have those of the replacements. -/
theorem value_bind (leaf : Other → Float) :
    (formula.bind replace).value leaf = formula.value fun token => (replace token).value leaf := by
  induction formula <;> simp_all [bind, value]

/-- Replacing leaves nests a formula no deeper than by what stands in their place. -/
theorem depth_bind_le {most : Nat} (bounded : ∀ token, (replace token).depth ≤ most) :
    (formula.bind replace).depth ≤ formula.depth + most := by
  induction formula with
  | leaf token => exact Nat.le_trans (bounded token) (Nat.le_add_left _ _)
  | negated inner inductionHypothesis => simp only [bind, depth]; omega
  | affirmed inner inductionHypothesis => simp only [bind, depth]; omega
  | group inner inductionHypothesis => simp only [bind, depth]; omega
  | factor signed inductionHypothesis => exact inductionHypothesis
  | scaled operation multiplicative front last frontHypothesis lastHypothesis =>
      simp only [bind, depth]
      omega
  | term product inductionHypothesis => exact inductionHypothesis
  | added operation additive front last frontHypothesis lastHypothesis =>
      simp only [bind, depth]
      omega

end Replacing

/-- A formula has one value for all values of what is none of its leaves. -/
theorem value_congr {formula : Formula Leaf rank} {left right : Leaf → Float}
    (same : ∀ token ∈ formula.leaves, left token = right token) : formula.value left = formula.value right := by
  induction formula <;> simp_all [leaves, value, or_imp, forall_and]

/-- Parentheses and the sign plus make no difference to the value. -/
theorem value_tree (formula : Formula Float rank) : formula.tree.value = formula.value id := by
  induction formula with
  | leaf => rfl
  | negated inner inductionHypothesis => simp [tree, value, Tree.value, inductionHypothesis]
  | affirmed inner inductionHypothesis => exact inductionHypothesis
  | group inner inductionHypothesis => exact inductionHypothesis
  | factor signed inductionHypothesis => exact inductionHypothesis
  | scaled operation multiplicative front last frontHypothesis lastHypothesis =>
      simp [tree, value, Tree.value, frontHypothesis, lastHypothesis, Operation.apply_eq]
  | term product inductionHypothesis => exact inductionHypothesis
  | added operation additive front last frontHypothesis lastHypothesis =>
      simp [tree, value, Tree.value, frontHypothesis, lastHypothesis, Operation.apply_eq]

end Formula

/-! ## Signs -/

section Signs

variable {token : Token} {operation : Operation}

/-- The tokens that continue a sum are the signs of its operations. -/
theorem additive?_eq_some_iff :
    token.additive? = some operation ↔ token = operation.sign ∧ operation.rank = .sum := by
  cases token <;> cases operation <;> simp [Token.additive?, Operation.sign, Operation.rank]

/-- The tokens that continue a product are the signs of its operations. -/
theorem multiplicative?_eq_some_iff :
    token.multiplicative? = some operation ↔
      token = operation.sign ∧ operation.rank = .product := by
  cases token <;> cases operation <;> simp [Token.multiplicative?, Operation.sign, Operation.rank]

/-- That no token follows which a chain of operations would go on with. -/
def Stops (operation? : Token → Option Operation) (tokens : List Token) : Prop :=
  ∀ token ∈ tokens.head?, operation? token = none

/-- A chain stops at the end of the tokens. -/
theorem stops_nil (operation? : Token → Option Operation) : Stops operation? [] := by
  simp [Stops]

/-- A chain stops before a token that is none of its signs. -/
theorem stops_cons {operation? : Token → Option Operation} {rest : List Token} :
    Stops operation? (token :: rest) ↔ operation? token = none := by
  simp [Stops]

/-- The sign of a sum ends a product. -/
theorem stops_of_additive {rest : List Token} (additive : operation.rank = .sum) :
    Stops Token.multiplicative? (operation.sign :: rest) := by
  rw [stops_cons]
  cases operation <;> first | rfl | cases additive

end Signs

/-! ## Reading what was written -/

section Reading

variable {operation? : Token → Option Operation} {operand : List Token → Reading}

/-- A chain that stops comes to the tree it has by then. -/
theorem chain_of_stops {rest : List Token} (stops : Stops operation? rest) (bound : Nat) (tree : Tree) :
    chain operation? operand bound tree rest = .ok (tree, rest) := by
  cases bound with
  | zero => rfl
  | succ bound =>
      cases rest with
      | nil => rfl
      | cons token rest => simp [chain, stops_cons.mp stops]

/-- A chain that has come to an operation goes on with it and its right operand. -/
theorem chained_of_operation {token : Token} {tokens others rest : List Token} {operation : Operation}
    {left right : Tree} (isOperation : operation? token = some operation)
    (front : ∃ bound, (token :: others).length ≤ bound ∧
      chained operation? operand tokens = chain operation? operand bound left (token :: others))
    (reads : operand others = .ok (right, rest)) (shorter : rest.length ≤ others.length) :
    ∃ bound, rest.length ≤ bound ∧
      chained operation? operand tokens =
        chain operation? operand bound (.combined operation left right) rest := by
  obtain ⟨bound, enough, read⟩ := front
  simp only [List.length_cons] at enough
  obtain ⟨fewer, rfl⟩ : ∃ fewer, bound = fewer + 1 := ⟨bound - 1, by omega⟩
  refine ⟨fewer, by omega, ?_⟩
  rw [read, chain, isOperation]
  simp [reads, bind, Except.bind]

/-- A chain begins with the tree of its first operand. -/
theorem chained_of_operand {tokens rest : List Token} {first : Tree}
    (reads : operand tokens = .ok (first, rest)) :
    chained operation? operand tokens = chain operation? operand rest.length first rest := by
  rw [chained, reads]
  rfl

namespace Formula

/-- What the reading of a formula comes to, whatever follows it: a signed operand is read at once, and of
products and sums everything up to the end of the formula, after which their chain may go on. -/
def Reads : {rank : Rank} → Formula Float rank → Prop
  | .signed, formula => ∀ {levels} rest, formula.depth < levels →
      readSigned levels (formula.tokens ++ rest) = .ok (formula.tree, rest)
  | .product, formula => ∀ {levels} rest, formula.depth < levels →
      ∃ bound, rest.length ≤ bound ∧
        chained Token.multiplicative? (readSigned levels) (formula.tokens ++ rest) =
          chain Token.multiplicative? (readSigned levels) bound formula.tree rest
  | .sum, formula => ∀ {levels} rest, formula.depth < levels → Stops Token.multiplicative? rest →
      ∃ bound, rest.length ≤ bound ∧
        readSum (readSigned levels) (formula.tokens ++ rest) =
          chain Token.additive? (chained Token.multiplicative? (readSigned levels)) bound
            formula.tree rest

variable {levels : Nat} {rest : List Token}

/-- A product is read as its tree before a token that continues no product. -/
theorem Reads.product {formula : Formula Float .product} (reads : formula.Reads)
    (shallow : formula.depth < levels) (stops : Stops Token.multiplicative? rest) :
    chained Token.multiplicative? (readSigned levels) (formula.tokens ++ rest) =
      .ok (formula.tree, rest) := by
  obtain ⟨bound, _, read⟩ := reads rest shallow
  rw [read, chain_of_stops stops]

/-- A sum is read as its tree before a token that continues neither a product nor a sum. -/
theorem Reads.sum {formula : Formula Float .sum} (reads : formula.Reads)
    (shallow : formula.depth < levels) (stops : Stops Token.multiplicative? rest)
    (ends : Stops Token.additive? rest) :
    readSum (readSigned levels) (formula.tokens ++ rest) = .ok (formula.tree, rest) := by
  obtain ⟨bound, _, read⟩ := reads rest shallow stops
  rw [read, chain_of_stops ends]

/-- Every formula is read as its tree. -/
theorem reads (formula : Formula Float rank) : formula.Reads := by
  -- One case for each production, with whatever follows left open: what follows the front of a chain is
  -- the sign and the last operand of the formula itself.
  induction formula with
  | leaf value =>
      intro levels rest shallow
      obtain ⟨deeper, rfl⟩ : ∃ deeper, levels = deeper + 1 := ⟨levels - 1, by omega⟩
      rfl
  | negated inner inductionHypothesis =>
      intro levels rest shallow
      obtain ⟨deeper, rfl⟩ : ∃ deeper, levels = deeper + 1 := ⟨levels - 1, by omega⟩
      have inside := @inductionHypothesis deeper rest (by simpa [depth] using shallow)
      simp only [tokens, symbols, id_eq, List.cons_append, readSigned, tree] at inside ⊢
      rw [inside]
      rfl
  | affirmed inner inductionHypothesis =>
      intro levels rest shallow
      obtain ⟨deeper, rfl⟩ : ∃ deeper, levels = deeper + 1 := ⟨levels - 1, by omega⟩
      have inside := @inductionHypothesis deeper rest (by simpa [depth] using shallow)
      simp only [tokens, symbols, id_eq, List.cons_append, readSigned, tree] at inside ⊢
      exact inside
  | group inner inductionHypothesis =>
      intro levels rest shallow
      obtain ⟨deeper, rfl⟩ : ∃ deeper, levels = deeper + 1 := ⟨levels - 1, by omega⟩
      have inside := @Reads.sum deeper (.closing :: rest) inner inductionHypothesis
        (by simpa [depth] using shallow) (stops_cons.mpr rfl) (stops_cons.mpr rfl)
      simp only [tokens, symbols, id_eq, List.cons_append, List.append_assoc, List.nil_append,
        readSigned, tree] at inside ⊢
      rw [inside]
      rfl
  | factor signed inductionHypothesis =>
      intro levels rest shallow
      exact ⟨rest.length, Nat.le_refl _, chained_of_operand (inductionHypothesis rest shallow)⟩
  | scaled operation multiplicative front last frontHypothesis lastHypothesis =>
      intro levels rest shallow
      simp only [depth, Nat.max_lt] at shallow
      have whole := chained_of_operation (multiplicative?_eq_some_iff.mpr ⟨rfl, multiplicative⟩)
        (frontHypothesis (operation.sign :: (last.tokens ++ rest)) shallow.1) (lastHypothesis rest shallow.2)
        (by simp)
      simpa only [tokens, symbols, id_eq, List.cons_append, List.append_assoc, tree] using whole
  | term product inductionHypothesis =>
      intro levels rest shallow stops
      exact ⟨rest.length, Nat.le_refl _,
        chained_of_operand (Reads.product inductionHypothesis shallow stops)⟩
  | added operation additive front last frontHypothesis lastHypothesis =>
      intro levels rest shallow stops
      simp only [depth, Nat.max_lt] at shallow
      have whole := chained_of_operation (additive?_eq_some_iff.mpr ⟨rfl, additive⟩)
        (frontHypothesis (operation.sign :: (last.tokens ++ rest)) shallow.1 (stops_of_additive additive))
        (Reads.product lastHypothesis shallow.2 stops) (by simp)
      simpa only [tokens, symbols, id_eq, List.cons_append, List.append_assoc, tree, readSum] using whole

/-- The tokens of a formula are read as its tree while no leaf stands under too much. -/
theorem ofTokens_tokens (formula : Formula Float .sum) (shallow : formula.depth < maximumNesting) :
    ofTokens formula.tokens = .ok formula.tree := by
  have read := Reads.sum formula.reads shallow (stops_nil _) (stops_nil _)
  rw [List.append_nil] at read
  rw [ofTokens, read]
  rfl

end Formula

end Reading

/-! ## Only what was written is read -/

section Deriving

/-- Two readings after one another succeed when each of them does. -/
theorem bind_eq_ok_iff {Error First Second : Type} {first : Except Error First}
    {next : First → Except Error Second} {result : Second} :
    first >>= next = .ok result ↔ ∃ middle, first = .ok middle ∧ next middle = .ok result := by
  cases first <;> simp [bind, Except.bind]

variable {levels : Nat} {tokens rest : List Token} {tree : Tree}

/-- That a list of tokens is the list of a formula with the given tree, no leaf of which stands under as
many signs and parentheses as there are levels. -/
def Derives (rank : Rank) (levels : Nat) (tokens : List Token) (tree : Tree) : Prop :=
  ∃ formula : Formula Float rank,
    formula.tokens = tokens ∧ formula.tree = tree ∧ formula.depth < levels

/-- A product is a sum by itself. -/
theorem Derives.term (derives : Derives .product levels tokens tree) :
    Derives .sum levels tokens tree := by
  obtain ⟨formula, rfl, rfl, shallow⟩ := derives
  exact ⟨.term formula, rfl, rfl, shallow⟩

/-- A signed operand is a product by itself. -/
theorem Derives.factor (derives : Derives .signed levels tokens tree) :
    Derives .product levels tokens tree := by
  obtain ⟨formula, rfl, rfl, shallow⟩ := derives
  exact ⟨.factor formula, rfl, rfl, shallow⟩

section Combining

variable {token : Token} {operation : Operation} {before after : List Token} {left right : Tree}

/-- A sum with a product added or taken away is a sum. -/
theorem Derives.added (front : Derives .sum levels before left)
    (isOperation : token.additive? = some operation) (last : Derives .product levels after right) :
    Derives .sum levels (before ++ token :: after) (.combined operation left right) := by
  obtain ⟨rfl, additive⟩ := additive?_eq_some_iff.mp isOperation
  obtain ⟨first, rfl, rfl, shallowFirst⟩ := front
  obtain ⟨second, rfl, rfl, shallowSecond⟩ := last
  exact ⟨.added operation additive first second, rfl, rfl, Nat.max_lt.mpr ⟨shallowFirst, shallowSecond⟩⟩

/-- A product with one more operand is a product. -/
theorem Derives.scaled (front : Derives .product levels before left)
    (isOperation : token.multiplicative? = some operation) (last : Derives .signed levels after right) :
    Derives .product levels (before ++ token :: after) (.combined operation left right) := by
  obtain ⟨rfl, multiplicative⟩ := multiplicative?_eq_some_iff.mp isOperation
  obtain ⟨first, rfl, rfl, shallowFirst⟩ := front
  obtain ⟨second, rfl, rfl, shallowSecond⟩ := last
  exact ⟨.scaled operation multiplicative first second, rfl, rfl,
    Nat.max_lt.mpr ⟨shallowFirst, shallowSecond⟩⟩

end Combining

/-- That a reader takes only what has a certain form from the front of the tokens. -/
def TakesOnly (read : List Token → Reading) (Form : List Token → Tree → Prop) : Prop :=
  ∀ {tokens tree rest}, read tokens = .ok (tree, rest) →
    ∃ taken, tokens = taken ++ rest ∧ Form taken tree

section Chains

variable {operation? : Token → Option Operation} {operand : List Token → Reading}
  {Operand Whole : List Token → Tree → Prop}

/-- A chain only extends what it began with, by operations and operands. -/
theorem chain_takes (takes : TakesOnly operand Operand)
    (combine : ∀ {before left token operation after right}, Whole before left →
      operation? token = some operation → Operand after right →
        Whole (before ++ token :: after) (.combined operation left right))
    {bound : Nat} {before : List Token} {left : Tree} (front : Whole before left)
    (read : chain operation? operand bound left tokens = .ok (tree, rest)) :
    ∃ taken, tokens = taken ++ rest ∧ Whole (before ++ taken) tree := by
  induction bound generalizing before left tokens with
  | zero =>
      cases read
      exact ⟨[], rfl, by simpa using front⟩
  | succ bound inductionHypothesis =>
      cases tokens with
      | nil =>
          cases read
          exact ⟨[], rfl, by simpa using front⟩
      | cons token others =>
          rw [chain] at read
          cases isOperation : operation? token with
          | none =>
              rw [isOperation] at read
              cases read
              exact ⟨[], rfl, by simpa using front⟩
          | some operation =>
              rw [isOperation] at read
              obtain ⟨⟨right, after⟩, reads, goesOn⟩ := bind_eq_ok_iff.mp read
              obtain ⟨middle, rfl, isOperand⟩ := takes reads
              obtain ⟨further, rfl, whole⟩ :=
                inductionHypothesis (combine front isOperation isOperand) goesOn
              exact ⟨token :: (middle ++ further), by simp, by simpa using whole⟩

/-- A chain takes only what is put together of operands when its operand takes only those: it begins with one,
and combines what it has with another one at each sign. -/
theorem chained_takes (takes : TakesOnly operand Operand)
    (begin : ∀ {before left}, Operand before left → Whole before left)
    (combine : ∀ {before left token operation after right}, Whole before left →
      operation? token = some operation → Operand after right →
        Whole (before ++ token :: after) (.combined operation left right)) :
    TakesOnly (chained operation? operand) Whole := by
  intro tokens tree rest read
  obtain ⟨⟨first, after⟩, reads, goesOn⟩ := bind_eq_ok_iff.mp read
  obtain ⟨front, rfl, isOperand⟩ := takes reads
  obtain ⟨further, rfl, whole⟩ := chain_takes takes combine (begin isOperand) goesOn
  exact ⟨front ++ further, by simp, whole⟩

end Chains

/-- The reader of sums takes only the tokens of sums when its operand takes only those of signed operands. -/
theorem readSum_takes {signed : List Token → Reading} (takes : TakesOnly signed (Derives .signed levels)) :
    TakesOnly (readSum signed) (Derives .sum levels) :=
  chained_takes (chained_takes takes Derives.factor Derives.scaled) Derives.term Derives.added

/-- Whatever is read as a signed operand derives as one. -/
theorem readSigned_takes (levels : Nat) : TakesOnly (readSigned levels) (Derives .signed levels) := by
  -- By induction on the levels, since a sign or a parenthesis is read with one level fewer.
  induction levels with
  | zero =>
      intro tokens tree rest read
      cases read
  | succ levels inductionHypothesis =>
      intro tokens tree rest read
      rcases tokens with _ | ⟨token, others⟩
      · cases read
      · cases token with
        | numeral value =>
            cases read
            exact ⟨[.numeral value], rfl, .leaf value, rfl, rfl, Nat.succ_pos levels⟩
        | minus =>
            obtain ⟨⟨inner, after⟩, reads, ended⟩ := bind_eq_ok_iff.mp read
            cases ended
            obtain ⟨taken, rfl, formula, rfl, rfl, shallow⟩ := inductionHypothesis reads
            exact ⟨.minus :: formula.tokens, rfl, .negated formula, rfl, rfl, Nat.succ_lt_succ shallow⟩
        | plus =>
            obtain ⟨taken, rfl, formula, rfl, rfl, shallow⟩ := inductionHypothesis read
            exact ⟨.plus :: formula.tokens, rfl, .affirmed formula, rfl, rfl, Nat.succ_lt_succ shallow⟩
        | opening =>
            obtain ⟨⟨inner, after⟩, reads, ended⟩ := bind_eq_ok_iff.mp read
            dsimp only at ended
            split at ended
            · cases ended
              obtain ⟨taken, rfl, formula, rfl, rfl, shallow⟩ := readSum_takes inductionHypothesis reads
              exact ⟨.opening :: (formula.tokens ++ [.closing]), by simp, .group formula, rfl, rfl,
                Nat.succ_lt_succ shallow⟩
            · cases ended
            · cases ended
        | times => cases read
        | divided => cases read
        | modulo => cases read
        | closing => cases read

/-- A list of tokens is read as a tree exactly when it derives with that tree. -/
theorem ofTokens_eq_ok_iff : ofTokens tokens = .ok tree ↔ Derives .sum maximumNesting tokens tree := by
  constructor
  · intro read
    obtain ⟨⟨whole, rest⟩, reads, ended⟩ := bind_eq_ok_iff.mp read
    obtain ⟨taken, rfl, derives⟩ := readSum_takes (readSigned_takes maximumNesting) reads
    dsimp only at ended
    split at ended
    · cases ended
      simpa using derives
    · cases ended
  · rintro ⟨formula, rfl, rfl, shallow⟩
    exact formula.ofTokens_tokens shallow

end Deriving

end Orchestration.Arithmetic
