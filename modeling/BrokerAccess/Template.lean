/-!
# Topic templates

A topic filter of a permission may name the connecting client: `${{clientid}}` and
`${{username}}`. A template is read once into segments that do not depend on the client,
and rendering puts the client's values in their place. Inserted values are never
read again, so a client cannot smuggle a placeholder into its own filter.
-/

namespace BrokerAccess

/-- A piece of a topic template. -/
inductive Segment where
  /-- A character that stands for itself. -/
  | literal (c : Char)
  /-- The client identifier of the connection. -/
  | client
  /-- The user name of the connection. -/
  | user
  deriving DecidableEq, Repr

namespace Template

/-- The text in front of the first `}}` and the text after it. -/
def untilClose : List Char → Option (List Char × List Char)
  | '}' :: '}' :: rest => some ([], rest)
  | c :: rest => (untilClose rest).map fun (key, after) => (c :: key, after)
  | [] => none

/-- What follows a closed placeholder is shorter than what the placeholder opened. -/
theorem length_untilClose {text key after : List Char} (h : untilClose text = some (key, after)) :
    after.length < text.length := by
  fun_induction untilClose text generalizing key after with
  | case1 rest =>
    simp only [Option.some.injEq, Prod.mk.injEq] at h
    simp only [← h.2, List.length_cons]
    omega
  | case2 c rest _ ih =>
    obtain ⟨⟨k, a⟩, hk, he⟩ := Option.map_eq_some_iff.1 h
    simp only [Prod.mk.injEq] at he
    have := ih hk
    simp only [List.length_cons, ← he.2]
    omega
  | case3 => simp at h

/-- A key names the client or the user, whatever the case of its letters; any other key
stands for nothing. The keys are ASCII, so folding ASCII letters is enough. -/
def keySegments (key : List Char) : List Segment :=
  if key.map Char.toLower = "clientid".toList then [.client]
  else if key.map Char.toLower = "username".toList then [.user]
  else []

/-- The segments of a template. A section sign directly in front of an opening keeps the
opening as it is written; an opening that is never closed is ordinary text to the end. -/
def segments : List Char → List Segment
  | '§' :: '$' :: '{' :: '{' :: rest =>
    .literal '$' :: .literal '{' :: .literal '{' :: segments rest
  | '$' :: '{' :: '{' :: rest =>
    match _closed : untilClose rest with
    | none => ('$' :: '{' :: '{' :: rest).map .literal
    | some (key, after) => keySegments key ++ segments after
  | c :: rest => .literal c :: segments rest
  | [] => []
termination_by text => text.length
decreasing_by
  all_goals simp only [List.length_cons]
  · omega
  · have := length_untilClose _closed
    omega
  · omega

/-- The segments as text, for one client. -/
def render (clientId userName : List Char) : List Segment → List Char
  | [] => []
  | .literal c :: rest => c :: render clientId userName rest
  | .client :: rest => clientId ++ render clientId userName rest
  | .user :: rest => userName ++ render clientId userName rest

/-- A topic filter with the values of one connection in it. -/
def substitute (topic clientId userName : String) : String :=
  String.ofList (render clientId.toList userName.toList (segments topic.toList))

end Template

end BrokerAccess
