import Bindery.Proofs.Source.Occurrences

set_option autoImplicit false

/-! The calls in a body. The names that an expression says it calls are those of the calls in the
term that was written whose callee, brackets apart, is a name, in the order of the places where
these names stand. -/

namespace Bindery

/-! ### Callees without places -/

namespace Expr

/-- The name, if the expression is one. -/
def name? : Expr → Option String
  | .identifier name _ => some name
  | _ => none

/-- A name that is called is no call itself, so both kinds of callee are searched alike. -/
theorem callees_call (callee : Expr) (arguments : List Expr) (span : Span) :
    (Expr.call callee arguments span).callees =
      callee.name?.toList ++ callee.callees ++ calleesAll arguments := by
  cases callee <;> rw [callees] <;> simp [name?, callees]

mutual

theorem callees_unplaced : (expr : Expr) → expr.unplaced.callees = expr.callees
  | .integer .. | .float .. | .boolean .. | .string .. | .identifier .. => rfl
  | .binary left operator right _ => by
      rw [unplaced, callees, callees, left.callees_unplaced, right.callees_unplaced]
  | .call callee arguments _ => by
      have same : callee.unplaced.name? = callee.name? := by
        cases callee <;> rfl
      rw [unplaced, callees_call, callees_call, same, callee.callees_unplaced,
        calleesAll_unplacedAll arguments]
  | .argument label value _ => by
      rw [unplaced, callees, callees, value.callees_unplaced]

theorem calleesAll_unplacedAll : (exprs : List Expr) →
    calleesAll (unplacedAll exprs) = calleesAll exprs
  | [] => rfl
  | expr :: rest => by
      rw [unplacedAll, calleesAll, calleesAll, expr.callees_unplaced,
        calleesAll_unplacedAll rest]

end

end Expr

namespace Source

open Syntax

/-! ### Named calls -/

namespace Occurrence

/-- The name and its place, if the term is one. -/
def name? (occurrence : Occurrence) : Option (Spanned String) :=
  match occurrence.term with
  | .identifier name => some (wordAt name occurrence.before)
  | _ => none

/-- What is called, if the term is a call of a name; brackets around the name do not matter. -/
def calledName? (occurrence : Occurrence) : Option (Spanned String) :=
  match occurrence.term with
  | .call callee _ => (callee.unwrapped occurrence.before).name?
  | _ => none

end Occurrence

/-- The names that are called in a term that stands behind this text, one for each call. -/
def Term.namedCalls (term : Term) (before : String) : List (Spanned String) :=
  (term.occurrences before).filterMap Occurrence.calledName?

def Term.namedCallsAll (arguments : List (Option String × Term)) (isFirst : Bool)
    (before : String) : List (Spanned String) :=
  (Term.occurrencesAll arguments isFirst before).filterMap Occurrence.calledName?

theorem Term.namedCalls_binary (left : Term) (operator : Char) (right : Term) (before : String) :
    (Term.binary left operator right).namedCalls before =
      left.namedCalls before ++
        right.namedCalls ((Layout.word (operatorKind operator) operator.toString).after
          (left.layout.after before)) := by
  rw [namedCalls, occurrences, List.filterMap_cons_none rfl, List.filterMap_append]
  rfl

theorem Term.namedCalls_paren (inner : Term) (before : String) :
    (Term.paren inner).namedCalls before =
      inner.namedCalls ((Layout.word .leftParen "(").after before) := by
  rw [namedCalls, occurrences, List.filterMap_cons_none rfl]
  rfl

theorem Term.namedCalls_call (callee : Term) (arguments : List (Option String × Term))
    (before : String) :
    (Term.call callee arguments).namedCalls before =
      (callee.unwrapped before).name?.toList ++ callee.namedCalls before ++
        Term.namedCallsAll arguments true
          ((Layout.raw .leftParen "(").after (callee.layout.after before)) := by
  have own : Occurrence.calledName? ⟨before, .call callee arguments⟩ =
      (callee.unwrapped before).name? := rfl
  rw [namedCalls, occurrences, List.filterMap_cons, own, List.filterMap_append]
  cases (callee.unwrapped before).name? <;> rfl

theorem Term.namedCallsAll_cons (label : Option String) (value : Term)
    (rest : List (Option String × Term)) (isFirst : Bool) (before : String) :
    Term.namedCallsAll ((label, value) :: rest) isFirst before =
      value.namedCalls (argumentStart label isFirst before) ++
        Term.namedCallsAll rest false
          (value.layout.after (argumentStart label isFirst before)) := by
  rw [namedCallsAll, occurrencesAll, List.filterMap_append]
  rfl

/-! ### Callees are named calls -/

theorem Term.name?_unwrapped (before : String) (term : Term) (expr : Expr)
    (stands : term.meaning? = some expr) :
    (term.unwrapped before).name?.map Spanned.value = expr.name? := by
  cases term with
  | integer _ | float _ | string _ | boolean _ | identifier _ =>
      rw [Term.meaning?] at stands
      obtain rfl := Option.some.inj stands
      rfl
  | binary left operator right =>
      obtain ⟨symbol, known, first, firstStands, second, secondStands, rfl⟩ :=
        Term.meaning?_binary_eq_some stands
      rfl
  | paren inner =>
      rw [Term.meaning?] at stands
      rw [Term.unwrapped]
      exact inner.name?_unwrapped _ expr stands
  | call callee arguments =>
      obtain ⟨function, calleeStands, values, valuesStand, rfl⟩ := Term.meaning?_call_eq_some stands
      rfl

mutual

theorem Term.callees_of_meaning (before : String) : (term : Term) → (expr : Expr) →
    term.meaning? = some expr → expr.callees = (term.namedCalls before).map Spanned.value
  | .integer _, expr, stands | .float _, expr, stands | .string _, expr, stands
  | .boolean _, expr, stands | .identifier _, expr, stands => by
      rw [Term.meaning?] at stands
      obtain rfl := Option.some.inj stands
      rfl
  | .binary left operator right, expr, stands => by
      obtain ⟨symbol, known, first, firstStands, second, secondStands, rfl⟩ :=
        Term.meaning?_binary_eq_some stands
      rw [Expr.callees, Term.namedCalls_binary, List.map_append,
        Term.callees_of_meaning _ left first firstStands,
        Term.callees_of_meaning _ right second secondStands]
  | .paren inner, expr, stands => by
      rw [Term.meaning?] at stands
      rw [Term.namedCalls_paren]
      exact Term.callees_of_meaning _ inner expr stands
  | .call callee arguments, expr, stands => by
      obtain ⟨function, calleeStands, values, valuesStand, rfl⟩ := Term.meaning?_call_eq_some stands
      rw [Expr.callees_call, Term.namedCalls_call, List.map_append, List.map_append,
        ← Term.callees_of_meaning _ callee function calleeStands,
        ← Term.calleesAll_of_meanings _ _ arguments values valuesStand,
        ← callee.name?_unwrapped before function calleeStands, Option.toList_map]

theorem Term.calleesAll_of_meanings (isFirst : Bool) (before : String) :
    (arguments : List (Option String × Term)) → (values : List Expr) →
      Term.argumentMeanings? arguments = some values →
        Expr.calleesAll values =
          (Term.namedCallsAll arguments isFirst before).map Spanned.value
  | [], values, stand => by
      rw [Term.argumentMeanings?] at stand
      rw [← Option.some.inj stand]
      rfl
  | (label, value) :: rest, values, stand => by
      obtain ⟨first, firstStands, others, othersStand, rfl⟩ :=
        Term.argumentMeanings?_cons_eq_some stand
      rw [Expr.calleesAll, Expr.callees, Term.namedCallsAll_cons, List.map_append,
        Term.callees_of_meaning _ value first firstStands,
        Term.calleesAll_of_meanings _ _ rest others othersStand]

end

/-! ### The order of named calls -/

/-- Names that start one after another, from `low` on and before `high`. -/
structure Ascending (low high : Nat) (names : List (Spanned String)) : Prop where
  ordered : names.Pairwise fun first second => first.span.start < second.span.start
  inside : ∀ name ∈ names, low ≤ name.span.start ∧ name.span.start < high

namespace Ascending

variable {low middle next high : Nat} {front back : List (Spanned String)}

theorem nil (low high : Nat) : Ascending low high [] :=
  ⟨List.Pairwise.nil, List.forall_mem_nil _⟩

theorem append (first : Ascending low middle front) (second : Ascending next high back)
    (apart : middle ≤ next) (starts : low ≤ next) (stops : middle ≤ high) :
    Ascending low high (front ++ back) := by
  refine ⟨List.pairwise_append.mpr ⟨first.ordered, second.ordered, ?_⟩, ?_⟩
  · intro earlier isEarlier later isLater
    have stop := (first.inside earlier isEarlier).2
    have start := (second.inside later isLater).1
    omega
  · intro name member
    rcases List.mem_append.mp member with inFront | inBack
    · have bounds := first.inside name inFront
      omega
    · have bounds := second.inside name inBack
      omega

theorem widen (names : Ascending middle next front) (starts : low ≤ middle) (stops : next ≤ high) :
    Ascending low high front := by
  refine ⟨names.ordered, fun name member => ?_⟩
  have bounds := names.inside name member
  omega

end Ascending

/-- A name in brackets stands where the brackets do, and nothing is called in them. -/
theorem Term.unwrapped_name {called : Spanned String} (before : String) : (term : Term) →
    (term.unwrapped before).name? = some called →
      before.utf8ByteSize ≤ called.span.start ∧
        called.span.start ≤ (term.layout.after before).utf8ByteSize ∧ term.namedCalls before = []
  | .integer _, impossible | .float _, impossible | .string _, impossible
  | .boolean _, impossible | .binary .., impossible | .call .., impossible => by cases impossible
  | .identifier name, found => by
      obtain rfl := Option.some.inj found
      refine ⟨Layout.size_le_wordStart before, ?_, rfl⟩
      rw [Term.after_layout, Term.content, Layout.after_word, String.utf8ByteSize_append]
      exact Nat.le_add_right _ _
  | .paren inner, found => by
      rw [Term.unwrapped] at found
      obtain ⟨start, stop, nothing⟩ := inner.unwrapped_name _ found
      rw [Term.after_paren, Term.namedCalls_paren]
      exact ⟨Nat.le_trans (Layout.size_le_after _ _) start,
        Nat.le_trans stop (Layout.size_le_after _ _), nothing⟩

/-- The name of a callee starts before the bracket behind it, and so do the calls in the callee. -/
theorem Term.ascending_callee (before : String) (callee : Term)
    (inner : Ascending before.utf8ByteSize (callee.layout.after before).utf8ByteSize
      (callee.namedCalls before)) :
    Ascending before.utf8ByteSize
      ((Layout.raw .leftParen "(").after (callee.layout.after before)).utf8ByteSize
      ((callee.unwrapped before).name?.toList ++ callee.namedCalls before) := by
  have bracket : ((Layout.raw .leftParen "(").after (callee.layout.after before)).utf8ByteSize =
      (callee.layout.after before).utf8ByteSize + 1 := by
    rw [Layout.after_raw, String.utf8ByteSize_append]
    rfl
  rw [bracket]
  cases found : (callee.unwrapped before).name? with
  | none => exact inner.widen (Nat.le_refl _) (Nat.le_succ _)
  | some called =>
      -- A name may be empty, so only the bracket keeps what follows apart from it.
      obtain ⟨start, stop, nothing⟩ := callee.unwrapped_name before found
      rw [nothing]
      exact ⟨List.pairwise_singleton _ _,
        List.forall_mem_singleton.mpr ⟨start, Nat.lt_succ_of_le stop⟩⟩

mutual

theorem Term.ascending_namedCalls (before : String) : (term : Term) →
    Ascending before.utf8ByteSize (term.layout.after before).utf8ByteSize
      (term.namedCalls before)
  | .integer _ | .float _ | .string _ | .boolean _ | .identifier _ => .nil _ _
  | .binary left operator right => by
      rw [Term.namedCalls_binary, Term.after_binary]
      refine (Term.ascending_namedCalls _ left).append (Term.ascending_namedCalls _ right) ?_ ?_ ?_
      · exact Layout.size_le_after _ _
      · exact Nat.le_trans (Layout.size_le_after _ _) (Layout.size_le_after _ _)
      · exact Nat.le_trans (Layout.size_le_after _ _) (Layout.size_le_after _ _)
  | .paren inner => by
      rw [Term.namedCalls_paren, Term.after_paren]
      exact (Term.ascending_namedCalls _ inner).widen (Layout.size_le_after _ _)
        (Layout.size_le_after _ _)
  | .call callee arguments => by
      have head := callee.ascending_callee before (Term.ascending_namedCalls before callee)
      have others := Term.ascending_namedCallsAll true
        ((Layout.raw .leftParen "(").after (callee.layout.after before)) arguments
      rw [Term.namedCalls_call, Term.after_call]
      refine (head.append others (Nat.le_refl _) ?_ ?_).widen (Nat.le_refl _)
        (Layout.size_le_after _ _)
      · exact Nat.le_trans (Layout.size_le_after _ _) (Layout.size_le_after _ _)
      · exact Layout.size_le_after _ _

theorem Term.ascending_namedCallsAll (isFirst : Bool) (before : String) :
    (arguments : List (Option String × Term)) →
      Ascending before.utf8ByteSize ((Term.contentAll arguments isFirst).after before).utf8ByteSize
        (Term.namedCallsAll arguments isFirst before)
  | [] => .nil _ _
  | (label, value) :: rest => by
      have own := Term.ascending_namedCalls (argumentStart label isFirst before) value
      have others := Term.ascending_namedCallsAll false
        (value.layout.after (argumentStart label isFirst before)) rest
      rw [Term.namedCallsAll_cons, Term.after_arguments, after_argument]
      refine (own.append others (Nat.le_refl _) ?_ ?_).widen ?_ (Nat.le_refl _)
      · exact Layout.size_le_after _ _
      · exact Layout.size_le_after _ _
      · exact Nat.le_trans (Layout.size_le_after _ _) (Layout.size_le_after _ _)

end

/-! ### The nodes of names -/

/-- The tree has a node for every name that is called, and the name is all that it holds. -/
theorem Term.node_of_namedCall (parent : Option Kind) (before : String) (term : Term) :
    ∀ called ∈ term.namedCalls before, ∃ node ∈ term.layout.postorder parent before,
      node.kind = .identExpr ∧ node.span = called.span ∧ node.identifiers = [called] := by
  intro called member
  obtain ⟨⟨start, occurring⟩, occurs, calls⟩ := List.mem_filterMap.mp member
  obtain ⟨around, nodes⟩ := term.nodes_of_occurrence parent before _ occurs
  cases occurring with
  | call callee arguments =>
      have inside : callee.unwrapped start ∈ (Term.call callee arguments).occurrences start := by
        rw [Term.occurrences]
        exact List.mem_cons_of_mem _
          (List.mem_append_left _ (callee.unwrapped_mem_occurrences start))
      obtain ⟨parent, inner⟩ := Term.nodes_of_occurrence around start _ _ inside
      change (callee.unwrapped start).name? = some called at calls
      rcases found : callee.unwrapped start with ⟨nameStart, named⟩
      rw [found] at calls inner
      cases named with
      | identifier name =>
          obtain rfl := Option.some.inj calls
          refine ⟨_, nodes (inner (Layout.asNode_mem _ _ parent nameStart)), rfl, ?_, ?_⟩
          · rw [span_wordAt]
            exact (Term.identifier name).opens.place nameStart
          · rw [Node.identifiers, Layout.tokensOf_asNode, Term.content,
              Layout.tokensOf_word _ _ _ rfl, if_pos rfl]
            rfl
      | integer _ | float _ | string _ | boolean _ | binary _ _ _ | paren _ | call _ _ =>
          cases calls
  | integer _ | float _ | string _ | boolean _ | identifier _ | binary _ _ _ | paren _ =>
      cases calls

/-! ### Programs -/

theorem terms_bodies (decls : List Decl) :
    ((sites [] decls).filterMap Site.body?).map Occurrence.term = decls.filterMap Decl.body? := by
  have own (site : Site) : site.body?.map Occurrence.term = site.decl.body? := by
    obtain ⟨front, decl⟩ := site
    cases decl with
    | binding exported identifiers body => cases body <;> rfl
    | bringIn _ | signature _ _ | typeDefinition _ _ _ => rfl
  rw [List.map_filterMap]
  conv_rhs => rw [← map_decl_sites [] decls, List.filterMap_map]
  exact congrArg (List.filterMap · (sites [] decls)) (funext own)

theorem exists_operandsAfter {term : Term} (known : term.operatorsKnown = true) (before : String) :
    ∃ expr, term.operandsAfter before [] = [expr] ∧ term.meaning? = some expr.unplaced := by
  obtain ⟨expr, stands⟩ := Option.isSome_iff_exists.mp (term.isSome_meaning?.trans known)
  have same := term.unplaced_operandsAfter before []
  rw [List.map_nil, term.operands_of_meaning [] expr stands] at same
  obtain ⟨own, operands, rfl⟩ := List.map_eq_singleton_iff.mp same
  exact ⟨own, operands, stands⟩

/-- A site without faults has a binding if it has a body, and the body is what the binding has. -/
theorem Site.binding_of_body {site : Site} (known : site.decl.operatorsKnown = true)
    (fine : site.decl.faults site.before = []) :
    Option.Rel
      (fun (body : Occurrence) (binding : BindingDecl) =>
        body.term.meaning? = some binding.body.unplaced) site.body? site.binding? := by
  obtain ⟨front, decl⟩ := site
  cases decl with
  | bringIn path => exact .none
  | binding exported identifiers body =>
      rw [Decl.faults, List.append_eq_nil_iff] at fine
      have complete := fine.2
      cases identifiers with
      | nil => cases complete
      | cons name parameters =>
          cases body with
          | none => cases complete
          | some term =>
              obtain ⟨expr, operands, stands⟩ := exists_operandsAfter known
                (bodyStart exported (name :: parameters) (Site.mk front _).before)
              rw [Site.body?, Site.binding?, Decl.entries, bodyOperands, operands]
              exact .some stands
  | signature name type => exact .none
  | typeDefinition exported name fields => exact .none

/-- A body and the binding that is built from it, in the tree of the source. The names that the
expression calls are those of the calls in the body whose callee is a name, brackets apart. They
start one after another, and for each there is a node of an identifier that holds just the name. -/
structure CallsAsWritten (tree : Syntax.Tree) (body : Occurrence) (binding : BindingDecl) :
    Prop where
  callees : binding.body.callees = (body.term.namedCalls body.before).map Spanned.value
  ordered : (body.term.namedCalls body.before).Pairwise fun first second =>
    first.span.start < second.span.start
  nodes : ∀ called ∈ body.term.namedCalls body.before, ∃ node ∈ tree.postorder,
    node.kind = .identExpr ∧ node.span = called.span ∧ node.identifiers = [called]

theorem Site.callsAsWritten {decls : List Decl} {site : Site} (member : site ∈ sites [] decls)
    (known : site.decl.operatorsKnown = true) (fine : site.decl.faults site.before = []) :
    Option.Rel (CallsAsWritten (tree decls)) site.body? site.binding? := by
  have related := site.binding_of_body known fine
  have nodes (body : Occurrence) (has : site.body? = some body) := Site.nodes_of_body member has
  generalize site.body? = left, site.binding? = right at related nodes ⊢
  cases related with
  | none => exact .none
  | @some body binding stands =>
      refine .some ⟨?_, (Term.ascending_namedCalls body.before body.term).ordered, ?_⟩
      · rw [← binding.body.callees_unplaced]
        exact Term.callees_of_meaning body.before body.term _ stands
      · intro called isCalled
        obtain ⟨node, inBody, isName⟩ :=
          Term.node_of_namedCall (some .binding) body.before body.term called isCalled
        exact ⟨node, nodes body rfl inBody, isName⟩

/-- The callees of a body are its named calls, in the order in which they are written. This holds
for every body of a source and the binding that is built from it, and a program that is built has a
binding for every body. -/
theorem callees_eq_namedCalls (decls : List Decl)
    (known : ∀ decl ∈ decls, decl.operatorsKnown = true) :
    ((sites [] decls).filterMap Site.body?).map Occurrence.term = decls.filterMap Decl.body? ∧
    ∃ text tree, render decls = .ok (text, tree) ∧
      ∀ program, Program.ofTree tree = .ok program →
        List.Forall₂ (CallsAsWritten tree) ((sites [] decls).filterMap Site.body?)
          program.bindings := by
  refine ⟨terms_bodies decls, (tree decls).text, tree decls, render_eq decls, ?_⟩
  intro program built
  rw [ofTree_tree] at built
  split at built
  · rename_i fine
    obtain rfl := Except.ok.inj built
    have fineAt : ∀ site ∈ sites [] decls, site.decl.faults site.before = [] := by
      have all := (faults_sites [] decls).symm.trans (List.isEmpty_iff.mp fine)
      exact List.flatMap_eq_nil_iff.mp all
    have same : List.Forall₂ (fun first second => first = second ∧ first ∈ sites [] decls)
        (sites [] decls) (sites [] decls) :=
      List.forall₂_same.mpr fun _ member => ⟨rfl, member⟩
    rw [bindings_entries]
    refine List.rel_filterMap ?_ same
    rintro site _ ⟨rfl, member⟩
    have isDecl : site.decl ∈ decls := by
      rw [← map_decl_sites [] decls]
      exact List.mem_map_of_mem member
    exact Site.callsAsWritten member (known _ isDecl) (fineAt site member)
  · cases built

/-- Calls in a callee, in arguments, behind a label, in brackets and in both operands. -/
def sampleCalls : Term :=
  .call (.paren (.identifier "f"))
    [(some "l", .call (.call (.identifier "g") []) [(none, .identifier "h")]),
      (none, .binary (.call (.identifier "f") []) '+' (.paren (.call (.identifier "k") [])))]

theorem callees_sampleCalls :
    let decls : List Decl := [.binding false ["x"] (some sampleCalls)]
    (∀ decl ∈ decls, decl.operatorsKnown = true) ∧
      ∃ tree program binding,
        render decls = .ok ("x = (f)(l: g()(h), f() + (k()))", tree) ∧
          Program.ofTree tree = .ok program ∧ program.bindings = [binding] ∧
            binding.body.callees = ["f", "g", "f", "k"] ∧
              ∀ called ∈ [(⟨"f", ⟨5, 6⟩⟩ : Spanned String), ⟨"g", ⟨11, 12⟩⟩, ⟨"f", ⟨19, 20⟩⟩,
                ⟨"k", ⟨26, 27⟩⟩], ∃ node ∈ tree.postorder,
                  node.kind = .identExpr ∧ node.span = called.span ∧
                    node.identifiers = [called] := by
  intro decls
  have known : ∀ decl ∈ decls, decl.operatorsKnown = true := by decide
  have fine : faults decls true "" = [] := by
    rw [← List.map_eq_nil_iff, unplaced_faults]
    rfl
  obtain ⟨_bodies, text, tree, rendered, called⟩ := callees_eq_namedCalls decls known
  have built : Program.ofTree tree = .ok (entries decls true "") := by
    rw [render_eq] at rendered
    cases rendered
    rw [ofTree_tree, fine]
    rfl
  have written : text = "x = (f)(l: g()(h), f() + (k()))" := by
    rw [render_eq] at rendered
    exact (congrArg Prod.fst (Except.ok.inj rendered)).symm.trans (by decide +kernel)
  have calls : sampleCalls.namedCalls
      (bodyStart false ["x"] (Site.mk [] (.binding false ["x"] (some sampleCalls))).before) =
        [⟨"f", ⟨5, 6⟩⟩, ⟨"g", ⟨11, 12⟩⟩, ⟨"f", ⟨19, 20⟩⟩, ⟨"k", ⟨26, 27⟩⟩] := by decide +kernel
  rw [written] at rendered
  have bodies := called _ built
  cases bodies with
  | cons own others =>
      cases others with
      | nil =>
          obtain ⟨callees, _ordered, nodes⟩ := own
          refine ⟨known, tree, _, _, rendered, built, rfl, ?_, ?_⟩
          · exact callees.trans (congrArg (List.map Spanned.value) calls)
          · intro name member
            rw [← calls] at member
            exact nodes name member

end Source

end Bindery
