import ProfileConnector.Generation
import ProfileConnector.Proofs.Outcome
import ProfileConnector.Proofs.Script.Writing
import ProfileConnector.Proofs.Text.Apart

/-!
Blocks that are told apart by their texts. What maps the values of one leaf, what goes through the entries
of an array and what correlates lists start differently in every target, and lists that are correlated are
all bound by name before anything else is written.
-/

namespace ProfileConnector

open Outcome
open Text (quote)

theorem append_behind {α : Type} (front : List α) (first : α) (second third fourth : List α) :
    front ++ first :: second ++ third ++ fourth = front ++ first :: (second ++ third ++ fourth) := by
  simp

/-! ## TypeScript -/

namespace TypeScript

theorem avoids_defaulted {expression : String} (avoids : Avoids '(' expression) (fallback : Option String) :
    Avoids '(' (match fallback with
      | some fallback => withDefault true expression fallback
      | none => expression) := by
  cases fallback with
  | none => exact avoids
  | some fallback =>
    have helper : Starts 'a' "applyDefaultCollection" := by simp [Starts]
    exact (((((helper.append _).append _).append _).append _).append _).avoids (by decide)

theorem validated_texts (name expression : String) (limits : Constraints) :
    validated .stringCollection name expression limits = if (textLimits limits).isEmpty then expression else
      "validateStringCollection" ++ "(" ++ quote name ++ ", " ++ expression ++ ", \x7b " ++
        Layout.items (textLimits limits) ++ " \x7d)" := rfl

theorem avoids_validated {expression : String} (avoids : Avoids '(' expression) (name : String) (limits : Constraints) :
    Avoids '(' (validated .stringCollection name expression limits) := by
  have helper : Starts 'v' "validateStringCollection" := by simp [Starts]
  rw [validated_texts]
  split
  · exact avoids
  · exact (((((((helper.append _).append _).append _).append _).append _).append _).append _).avoids (by decide)

theorem avoids_limited {expression : String} (avoids : Avoids '(' expression) (name : String) (limits : Constraints) :
    Avoids '(' (if limits.hasString then validated .stringCollection name expression limits else expression) := by
  split
  · exact avoids_validated avoids name limits
  · exact avoids

theorem avoids_readEntryTexts (relative : String) : Avoids '(' (readEntryTexts relative) := by
  have texts : Starts 'p' "parseStringCollection(readEntryValue(entry, " := by simp [Starts]
  rw [readEntryTexts]
  split
  · exact ⟨'p', by simp, by decide⟩
  · exact ((texts.append _).append _).avoids (by decide)

theorem avoids_many (read : LeafRead) : Avoids '(' (many read) := by
  have texts : Starts 'p' "parseStringCollection(readSourceValue(row, " := by simp [Starts]
  obtain ⟨origin, fallback, property, limits⟩ := read
  cases origin with
  | row source =>
    have expression : Avoids '(' (readTexts (sourceLiteral source)) := ((texts.append _).append _).avoids (by decide)
    exact avoids_limited (avoids_defaulted expression fallback) property limits
  | entry relative => exact avoids_limited (avoids_defaulted (avoids_readEntryTexts relative) fallback) property limits

def bound (level : Nat) : String × String → String
  | (name, read) => indent (level + 1) ++ "const " ++ name ++ " = " ++ read ++ ";"

theorem broadcast_eq (reads : List (String × String)) (body element : String) (level : Nat) : ∃ rest,
    broadcast reads body element false level = Layout.lines (("(() => \x7b" :: reads.map (bound level)) ++
      (indent (level + 1) ++ "const lengths = [" ++ Layout.items (reads.map Prod.fst) ++
        "].map((value) => value.length);") :: rest) :=
  ⟨_, congrArg Layout.lines (append_behind ("(() => \x7b" :: reads.map (bound level)) _ _ _ _)⟩

theorem starts_broadcast (reads : List (String × String)) (body element : String) (level : Nat) :
    Starts '(' (broadcast reads body element false level) := by
  have block : Starts '(' "(() => \x7b" := by simp [Starts]
  obtain ⟨rest, shape⟩ := broadcast_eq reads body element level
  rw [shape, Layout.lines, List.cons_append, intercalate_cons]
  exact block.append _

theorem apart_mapped (read : LeafRead) (body element : String) (level : Nat) (reads : List (String × String))
    (body' element' : String) :
    Apart (mapped (many read) body element false level) (broadcast reads body' element' false level) :=
  (((avoids_many read).append _).append _ |>.append _).apart (starts_broadcast _ _ _ _)

theorem apart_eachEntry (root body : String) (level : Nat) (reads : List (String × String)) (body' element' : String) :
    Apart (eachEntry root body) (broadcast reads body' element' false level) := by
  have entries : Starts 'r' "readArrayEntries(row, " := by simp [Starts]
  exact ((((entries.append _).append _).append _).append _ |>.avoids (by decide)).apart (starts_broadcast _ _ _ _)

theorem apart_broadcast (front : List (String × String)) (next : String × String) (named : Starts 'f' next.1)
    (rest : List (String × String)) (body element body' element' : String) (level : Nat) :
    Apart (broadcast front body element false level)
      (broadcast (front ++ next :: rest) body' element' false level) := by
  have lengths : "const lengths = [" = "const " ++ "lengths = [" := by simp
  have different : Apart "lengths = [" next.1 := (Starts.avoids (d := 'l') (by simp [Starts]) (by decide)).apart named
  obtain ⟨others, own⟩ := broadcast_eq front body element level
  obtain ⟨others', longer⟩ := broadcast_eq (front ++ next :: rest) body' element' level
  rw [own, longer, List.map_append, List.map_cons, ← List.cons_append, List.append_assoc, List.cons_append]
  refine Apart.intercalate "\n" (_ :: front.map (bound level)) ?_ _ _
  rw [bound, lengths]
  simp only [String.append_assoc]
  exact ((different.append _ _).behind _).behind _

end TypeScript

/-! ## C# -/

namespace CSharp

theorem avoids_defaulted {expression : String} (avoids : Avoids 'n' expression) (fallback : Option String) :
    Avoids 'n' (match fallback with
      | some fallback => withDefault true expression fallback
      | none => expression) := by
  cases fallback with
  | none => exact avoids
  | some fallback =>
    have parser : Starts 'R' "RowParser." := by simp [Starts]
    exact ((((((parser.append _).append _).append _).append _).append _).append _).avoids (by decide)

theorem validated_texts (name expression : String) (limits : Constraints) :
    validated .stringCollection name expression limits none = if !limits.hasString then .ok expression else
      (textLimits limits).map fun arguments =>
        "Validation." ++ "ValidateStringCollection" ++ "(" ++ quote name ++ ", " ++ expression ++ ", " ++ arguments ++
          ")" := rfl

theorem avoids_validated {expression name text : String} {limits : Constraints} (avoids : Avoids 'n' expression)
    (written : validated .stringCollection name expression limits none = .ok text) : Avoids 'n' text := by
  have check : Starts 'V' "Validation." := by simp [Starts]
  rw [validated_texts] at written
  split at written
  · cases written
    exact avoids
  · obtain ⟨arguments, _, rfl⟩ := map_eq_ok.mp written
    exact ((((((((check.append _).append _).append _).append _).append _).append _).append _).append _).avoids
      (by decide)

theorem avoids_many {read : LeafRead} {text : String} (written : many read = .ok text) : Avoids 'n' text := by
  have texts : Starts 'R' "RowParser.ParseStringCollection(row, " := by simp [Starts]
  have entryTexts : Starts 'R' "RowParser.ParseStringCollection(entry, " := by simp [Starts]
  obtain ⟨origin, fallback, property, limits⟩ := read
  cases origin with
  | row source =>
    have expression : Avoids 'n' (readTexts (sourceLiteral source)) := ((texts.append _).append _).avoids (by decide)
    exact avoids_validated (avoids_defaulted expression fallback) written
  | entry relative =>
    have expression : Avoids 'n' (readEntryTexts relative) := ((entryTexts.append _).append _).avoids (by decide)
    exact avoids_validated (avoids_defaulted expression fallback) written

theorem starts_invoked (resultType : String) (body : List String) (level : Nat) :
    Starts 'n' (invoked resultType body level) := by
  have delegate : Starts 'n' "new Func<" := by simp [Starts]
  exact (((((((delegate.append _).append _).append _).append _).append _).append _).append _).append _

theorem apart_invoked (resultType : String) (front : List String) {first first' : String} (apart : Apart first first')
    (rest rest' : List String) (level : Nat) :
    Apart (invoked resultType (front ++ first :: rest) level)
      (invoked resultType (front ++ first' :: rest') level) := by
  have statements := apart.intercalate "\n" front rest rest'
  exact (((statements.behind _).append _ _).append _ _).append _ _

theorem apart_mapped {read : LeafRead} {shown : String} (written : many read = .ok shown) (body element : String)
    (level : Nat) (reads : List (String × String)) (body' element' : String) :
    Apart (mapped shown body element false level) (broadcast reads body' element' false level) := by
  have starts : Starts 'n' (broadcast reads body' element' false level) := starts_invoked _ _ _
  exact ((((((((avoids_many written).append _).append _).append _).append _).append _).append _).append _).apart starts

theorem eachEntry_eq (root body : String) (level : Nat) : ∃ rest, eachEntry root body level =
    invoked "List<string>" ((indent (level + 1) ++ "var results = new List<string>();") :: rest) level := ⟨_, rfl⟩

def bound (level : Nat) : String × String → String
  | (name, read) => indent (level + 1) ++ "var " ++ name ++ " = " ++ read ++ ";"

theorem broadcast_eq (reads : List (String × String)) (body element : String) (level : Nat) : ∃ rest,
    broadcast reads body element false level = invoked ("List<" ++ element ++ ">") (reads.map (bound level) ++
      (indent (level + 1) ++ "string GetValue(List<string> values, int index)") :: rest) level :=
  ⟨_, congrArg (invoked _ · level) ((congrArg (· ++ _) (append_behind (reads.map (bound level)) _ _ _ _)).trans
    (List.append_assoc _ (_ :: _) _))⟩

theorem apart_eachEntry (root body : String) (level : Nat) {name : String} (named : Starts 'f' name) (read : String)
    (reads : List (String × String)) (body' : String) :
    Apart (eachEntry root body level) (broadcast ((name, read) :: reads) body' "string" false level) := by
  have results : "var results = new List<string>();" = "var " ++ "results = new List<string>();" := by simp
  have resultType : "List<" ++ "string" ++ ">" = "List<string>" := by simp
  have different : Apart "results = new List<string>();" name :=
    (Starts.avoids (d := 'r') (by simp [Starts]) (by decide)).apart named
  obtain ⟨rest, own⟩ := eachEntry_eq root body level
  obtain ⟨rest', other⟩ := broadcast_eq ((name, read) :: reads) body' "string" level
  rw [own, other, resultType]
  refine apart_invoked _ [] ?_ _ _ level
  rw [bound, results, String.append_assoc, String.append_assoc, String.append_assoc, String.append_assoc]
  have whole := different.append "" (" = " ++ (read ++ ";"))
  rw [String.append_empty] at whole
  exact (whole.behind _).behind _

theorem apart_broadcast (front : List (String × String)) (next : String × String) (rest : List (String × String))
    (body body' element : String) (level : Nat) :
    Apart (broadcast front body element false level) (broadcast (front ++ next :: rest) body' element false level) := by
  have different : Apart "string GetValue(List<string> values, int index)" "var " := .of_any (by simp)
  obtain ⟨others, own⟩ := broadcast_eq front body element level
  obtain ⟨others', longer⟩ := broadcast_eq (front ++ next :: rest) body' element level
  rw [own, longer, List.map_append, List.map_cons, List.append_assoc, List.cons_append]
  refine apart_invoked _ (front.map (bound level)) ?_ _ _ level
  rw [bound]
  have whole := different.append "" (next.1 ++ (" = " ++ (next.2 ++ ";")))
  simp only [String.append_empty, String.append_assoc] at whole ⊢
  exact whole.behind _

end CSharp

/-! ## Python -/

namespace Python

theorem starts_mapped (read body : Term) (level : Nat) : Starts '[' ((mapped read body false).write level) := by
  have opens : Starts '[' "[" := by simp [Starts]
  rw [mapped, absentWhenEmpty, if_neg Bool.false_ne_true, Term.write_comprehension]
  exact (((((opens.append _).append _).append _).append _).append _).append _

theorem starts_eachEntry (root : String) (body : Term) (level : Nat) :
    Starts '[' ((eachEntry root body).write level) := by
  have opens : Starts '[' "[" := by simp [Starts]
  rw [eachEntry, Term.write_comprehension]
  exact (((((opens.append _).append _).append _).append _).append _).append _

theorem starts_broadcast (reads : List (String × Term)) (body : Term) (absentIfEmpty : Bool) (level : Nat) :
    Starts '(' ((broadcast reads body absentIfEmpty).write level) := by
  have opens : Starts '(' "(lambda " := by simp [Starts]
  rw [broadcast, Term.write_apply]
  exact (((((((opens.append _).append _).append _).append _).append _).append _).append _).append _

theorem apart_broadcast {front : List (String × Term)} (some : front ≠ []) (next : String × Term)
    (rest : List (String × Term)) (body body' : Term) (level : Nat) :
    Apart ((broadcast front body false).write level) ((broadcast (front ++ next :: rest) body' false).write level) := by
  have different : Apart ": " ", " := .of_any (by simp)
  have names : Layout.items ((front ++ next :: rest).map Prod.fst) =
      Layout.items (front.map Prod.fst) ++ (", " ++ Layout.items (next.1 :: rest.map Prod.fst)) := by
    rw [Layout.items, List.map_append, List.map_cons,
      String.intercalate_append_of_ne_nil (by simpa using some) (by simp), String.append_assoc]
    rfl
  have bound : Apart ("(lambda " ++ Layout.items (front.map Prod.fst) ++ ": ")
      ("(lambda " ++ Layout.items ((front ++ next :: rest).map Prod.fst) ++ ": ") := by
    have later := different.append "" (Layout.items (next.1 :: rest.map Prod.fst) ++ ": ")
    rw [names]
    simp only [String.append_empty, String.append_assoc] at later ⊢
    exact (later.behind _).behind _
  rw [broadcast, broadcast, Term.write_apply, Term.write_apply]
  exact (((((bound.append _ _).append _ _).append _ _).append _ _).append _ _).append _ _

end Python

/-! ## Plans -/

namespace Plan

theorem starts_slotName (slot : Nat) : Starts 'f' (Layout.slotName slot) :=
  Starts.append (s := "field") (by simp [Starts]) _

variable {target : Target} {e e' : String}

theorem apart_of_mapped {read : LeafRead} {element element' : DisplayNames} {body body' : Plan}
    {reads : List (Nat × LeafRead)} (own : (Plan.mapped read element false body).write target = .ok e)
    (other : (Plan.broadcast reads element' false body').write target = .ok e') : Apart e e' := by
  cases target with
  | typescript =>
    cases own
    cases other
    exact TypeScript.apart_mapped read _ element.ts _ _ _ _
  | csharp =>
    obtain ⟨shown, written, own⟩ := bind_eq_ok.mp own
    obtain ⟨inner, _, own⟩ := bind_eq_ok.mp own
    obtain ⟨lists, _, other⟩ := bind_eq_ok.mp other
    obtain ⟨inner', _, other⟩ := bind_eq_ok.mp other
    cases own
    cases other
    exact CSharp.apart_mapped written _ element.cs _ _ _ _
  | python =>
    cases own
    cases other
    exact ((Python.starts_mapped _ _ _).avoids (by decide)).apart (Python.starts_broadcast _ _ _ _)

theorem apart_of_eachEntry {root : String} {body body' : Plan} {slot : Nat} {read : LeafRead}
    {reads : List (Nat × LeafRead)} (own : (Plan.eachEntry root body).write target = .ok e)
    (other : (Plan.broadcast ((slot, read) :: reads) EntityContext.textElement false body').write target = .ok e') :
    Apart e e' := by
  cases target with
  | typescript =>
    cases own
    cases other
    exact TypeScript.apart_eachEntry root _ 1 _ _ _
  | csharp =>
    obtain ⟨inner, _, own⟩ := bind_eq_ok.mp own
    obtain ⟨lists, bound, other⟩ := bind_eq_ok.mp other
    obtain ⟨inner', _, other⟩ := bind_eq_ok.mp other
    rw [List.mapM_cons] at bound
    obtain ⟨first, written, bound⟩ := bind_eq_ok.mp bound
    obtain ⟨rest, _, bound⟩ := bind_eq_ok.mp bound
    obtain ⟨shown, _, named⟩ := bind_eq_ok.mp written
    cases own
    cases other
    cases bound
    cases named
    exact CSharp.apart_eachEntry root _ _ (starts_slotName slot) _ _ _
  | python =>
    cases own
    cases other
    exact ((Python.starts_eachEntry _ _ _).avoids (by decide)).apart (Python.starts_broadcast _ _ _ _)

theorem apart_of_broadcast {front : List (Nat × LeafRead)} (some : front ≠ []) {next : Nat × LeafRead}
    {rest : List (Nat × LeafRead)} {element : DisplayNames} {body body' : Plan}
    (own : (Plan.broadcast front element false body).write target = .ok e)
    (other : (Plan.broadcast (front ++ next :: rest) element false body').write target = .ok e') : Apart e e' := by
  cases target with
  | typescript =>
    let shown (slotRead : Nat × LeafRead) : String × String := (Layout.slotName slotRead.1, TypeScript.many slotRead.2)
    have short : e = TypeScript.broadcast (front.map shown) (TypeScript.write 3 body) element.ts false 1 :=
      (Except.ok.inj own).symm
    have long : e' =
        TypeScript.broadcast ((front ++ next :: rest).map shown) (TypeScript.write 3 body') element.ts false 1 :=
      (Except.ok.inj other).symm
    rw [short, long, List.map_append, List.map_cons]
    exact TypeScript.apart_broadcast _ (shown next) (starts_slotName next.1) _ _ _ _ _ 1
  | csharp =>
    obtain ⟨lists, shown, own⟩ := bind_eq_ok.mp own
    obtain ⟨inner, _, own⟩ := bind_eq_ok.mp own
    obtain ⟨lists', shown', other⟩ := bind_eq_ok.mp other
    obtain ⟨inner', _, other⟩ := bind_eq_ok.mp other
    rw [List.mapM_append, shown] at shown'
    obtain ⟨_, same, shown'⟩ := bind_eq_ok.mp shown'
    obtain ⟨more, later, shown'⟩ := bind_eq_ok.mp shown'
    rw [List.mapM_cons] at later
    obtain ⟨first, _, later⟩ := bind_eq_ok.mp later
    obtain ⟨others, _, later⟩ := bind_eq_ok.mp later
    cases own
    cases other
    cases same
    cases later
    cases shown'
    exact CSharp.apart_broadcast lists first others inner inner' element.cs 1
  | python =>
    let shown (slotRead : Nat × LeafRead) : String × Term := (Layout.slotName slotRead.1, Python.many slotRead.2)
    have short : e = (Python.broadcast (front.map shown) (Python.term body) false).write 1 := (Except.ok.inj own).symm
    have long : e' = (Python.broadcast ((front ++ next :: rest).map shown) (Python.term body') false).write 1 :=
      (Except.ok.inj other).symm
    rw [short, long, List.map_append, List.map_cons]
    exact Python.apart_broadcast (by simpa using some) _ _ _ _ _

end Plan

end ProfileConnector
