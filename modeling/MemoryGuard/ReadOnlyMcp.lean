import MemoryGuard.JsonScanner
import MemoryGuard.OrderedDict
import MemoryGuard.Traces

/-!
The tool server that reads but does not write. Each message is answered on its
own; two flags remember the handshake. A request to the service is made only for
a tool of a fixed table, and only with an identifier in its path.
-/
namespace MemoryGuard.ReadOnlyMcp

open OrderedDict Guarded Traces JsonScanner

section Tools

structure Tool where
  template : String
  arg : Option String
  description : String

/-- `TOOLS`. -/
def tools : List (String × Tool) := [
  ("memoryguard_report_sources", ⟨"/api/v2/reports/\x7bid\x7d/sources", some "report_id",
    "Read the exact historical source bundle used by a report; hashes are not truth"⟩),
  ("memoryguard_overview", ⟨"/api/v2/casework", none,
    "Read scoped current workbench state; never action authority"⟩),
  ("memoryguard_recovery", ⟨"/api/v2/tasks/\x7bid\x7d/recovery", some "task_id",
    "Read dependency-first recovery plan, without performing it"⟩),
  ("memoryguard_impact", ⟨"/api/v2/tasks/\x7bid\x7d/impact", some "task_id",
    "Read current causal dependency graph"⟩),
  ("memoryguard_case_history", ⟨"/api/v2/cases/\x7bid\x7d/timeline", some "case_id",
    "Read append-only versions of a scoped risk case"⟩),
  ("memoryguard_sources", ⟨"/api/v2/cases/\x7bid\x7d/dossier", some "case_id",
    "Read source receipts and freshness; not external fact truth"⟩),
  ("memoryguard_partner_review", ⟨"/api/v2/partner-reviews/\x7bid\x7d", some "plan_id",
    "Read a request-bound ACP observation; no creation or payment"⟩)]

def isAlphanumeric (c : CodePoint) : Bool :=
  (48 ≤ c.val ∧ c.val ≤ 57) ∨ (65 ≤ c.val ∧ c.val ≤ 90) ∨ (97 ≤ c.val ∧ c.val ≤ 122)

/-- The pattern of the identifiers that may stand in a path. -/
def IsIdentifier : Text → Prop
  | [] => False
  | c :: rest => isAlphanumeric c ∧ 2 ≤ rest.length ∧ rest.length ≤ 95 ∧
      rest.all fun d => isAlphanumeric d || d ∈ text "_.:-"

instance : ∀ s : Text, Decidable (IsIdentifier s)
  | [] => inferInstanceAs (Decidable False)
  | _ :: _ => inferInstanceAs (Decidable (_ ∧ _))

/-- `template.format(id=ident)`, of a template that has no other placeholder. -/
def format (ident : Text) : List Char → Text
  | '{' :: 'i' :: 'd' :: '}' :: rest => ident ++ format ident rest
  | c :: rest => codePoint c :: format ident rest
  | [] => []

end Tools

section Messages

/-- A dictionary whose keys are written out. -/
def record (fields : List (String × Value)) : Value :=
  .dict (fields.map fun f => (text f.1, f.2))

def str (s : String) : Value := .str (text s)

/-- `fields.get(key)`. -/
def get (key : String) (fields : List (Text × Value)) : Option Value := Dict.find (text key) fields

def result (ident value : Value) : Value :=
  record [("jsonrpc", str "2.0"), ("id", ident), ("result", value)]

def error (ident : Value) (code : ℤ) (message : String) : Value :=
  record [("jsonrpc", str "2.0"), ("id", ident),
    ("error", record [("code", .int code), ("message", str message)])]

def definition (name : String) (tool : Tool) : Value :=
  let props := tool.arg.toList.map fun arg =>
    (arg, record [("type", str "string"), ("pattern", str "^[A-Za-z0-9][A-Za-z0-9_.:-]\x7b2,95\x7d$")])
  record [("name", str name), ("description", str tool.description),
    ("inputSchema", record [("type", str "object"), ("properties", record props),
      ("required", .list (tool.arg.toList.map str)), ("additionalProperties", .bool false)]),
    ("annotations", record [("readOnlyHint", .bool true), ("destructiveHint", .bool false),
      ("idempotentHint", .bool true), ("openWorldHint", .bool false)])]

def definitions : Value := .list (tools.map fun tool => definition tool.1 tool.2)

/-- What is answered to the first request. -/
def greeting : Value :=
  record [("protocolVersion", str "2025-06-18"),
    ("capabilities", record [("tools", record [("listChanged", .bool false)])]),
    ("serverInfo", record [("name", str "memoryguard-readonly"), ("version", str "2.2.0")]),
    ("instructions", str ("All data is scoped audit information. No returned READY or review " ++
      "constitutes permission to move money."))]

/-- The content of a tool's result. -/
def content (message : Text) (isError : Bool) : Value :=
  record [("content", .list [record [("type", str "text"), ("text", .str message)]]),
    ("isError", .bool isError)]

end Messages

section Dispatch

/-- The exception that looking up a missing key raises. -/
inductive Raised
  | key
  deriving DecidableEq

/-- A configured server: the origin and the credential of its requests. -/
structure ReadOnlyMCP where
  base : Text
  token : Text

/-- What the server remembers of a conversation. -/
structure Handshake where
  initialized : Bool
  ready : Bool
  deriving DecidableEq

structure Request where
  method : String
  url : Text
  headers : List (Text × Text)
  deriving DecidableEq

/-- The client's answer to a request as a text, when there is one: the request can
fail, and so can writing out its data. -/
abbrev Http := Request → Option Text

structure Outcome where
  response : Option Value
  state : Handshake
  requests : List Request
  deriving DecidableEq

variable (server : ReadOnlyMCP) (http : Http) (state : Handshake)

def reply (response : Value) : Outcome := ⟨some response, state, []⟩

def request (path : Text) : Request where
  method := "GET"
  url := server.base ++ path
  headers := [(text "Authorization", text "Bearer " ++ server.token)]

/-- The call of a tool whose arguments have been checked. -/
def fetchTool (ident : Value) (path : Text) : Outcome :=
  let sent := request server path
  match http sent with
  | some data => ⟨some (result ident (content data false)), state, [sent]⟩
  | none => ⟨some (result ident (content
      (text "Scoped MemoryGuard data unavailable. Do not assume permission.") true)), state, [sent]⟩

/-- `set(args) == wanted`. -/
def SameKeys (args : List (Text × Value)) (wanted : List Text) : Prop :=
  (∀ k ∈ args.map Prod.fst, k ∈ wanted) ∧ ∀ k ∈ wanted, k ∈ args.map Prod.fst

instance (args : List (Text × Value)) (wanted : List Text) : Decidable (SameKeys args wanted) :=
  inferInstanceAs (Decidable (_ ∧ _))

/-- `tools/call`. -/
def callTool (ident : Value) (params : List (Text × Value)) : Except Raised Outcome :=
  match get "name" params, (get "arguments" params).getD (.dict []) with
  | some (.str name), .dict args =>
    if name ∈ tools.map fun tool => text tool.1 then do
      let tool ← fetch (Dict.find name (tools.map fun tool => (text tool.1, tool.2))) Raised.key
      if SameKeys args (tool.arg.toList.map text) then
        match tool.arg with
        | none => return fetchTool server http state ident (text tool.template)
        | some arg => do
          match ← fetch (get arg args) Raised.key with
          | .str value =>
            if IsIdentifier value then
              return fetchTool server http state ident (format value tool.template.toList)
            else return reply state (error ident (-32602) "Invalid scoped identifier")
          | _ => return reply state (error ident (-32602) "Invalid scoped identifier")
      else return reply state (error ident (-32602) "Unexpected tool arguments")
    else return reply state (error ident (-32602) "Invalid tool")
  | _, _ => return reply state (error ident (-32602) "Invalid tool")

/-- A request with a valid identifier and parameters. -/
def handle (ident : Value) (method : Text) (params : List (Text × Value)) :
    Except Raised Outcome :=
  if method = text "initialize" then
    if state.initialized then return reply state (error ident (-32600) "Already initialized")
    else match get "protocolVersion" params with
      | some (.str _) =>
        return reply { state with initialized := true } (result ident greeting)
      | _ => return reply state (error ident (-32602) "Missing protocolVersion")
  else if method = text "ping" then return reply state (result ident (record []))
  else if ¬ state.ready then
    return reply state (error ident (-32002) "Initialization not completed")
  else if method = text "tools/list" then
    return reply state (result ident (record [("tools", definitions)]))
  else if method ≠ text "tools/call" then
    return reply state (error ident (-32601) "Method not supported")
  else callTool server http state ident params

def isIdent : Value → Bool
  | .int _ => true
  | .str _ => true
  | _ => false

/-- `dispatch`. -/
def dispatch (msg : Value) : Except Raised Outcome :=
  match msg with
  | .dict fields =>
    if get "jsonrpc" fields ≠ some (str "2.0") then
      return reply state (error .null (-32600) "Invalid request")
    else match get "method" fields with
      | some (.str method) =>
        match get "id" fields with
        | none =>
          if method = text "notifications/initialized" ∧ state.initialized then
            return ⟨none, { state with ready := true }, []⟩
          else return ⟨none, state, []⟩
        | some ident =>
          if isIdent ident then
            match (get "params" fields).getD (.dict []) with
            | .dict params => handle server http state ident method params
            | _ => return reply state (error ident (-32602) "Invalid parameters")
          else return reply state (error ident (-32600) "Invalid request identifier")
      | _ => return reply state (error .null (-32600) "Invalid method")
  | _ => return reply state (error .null (-32600) "Invalid request")

end Dispatch

section Paths

/-- A text that is one segment of a path. -/
structure IsSegment (s : Text) : Prop where
  slash : codePoint '/' ∉ s
  query : codePoint '?' ∉ s
  fragment : codePoint '#' ∉ s
  dot : s ≠ text "."
  dots : s ≠ text ".."

theorem IsIdentifier.isSegment {s : Text} (h : IsIdentifier s) : IsSegment s := by
  cases s with
  | nil => exact h.elim
  | cons c rest =>
    obtain ⟨hfirst, hlength, _, hrest⟩ := h
    have hout : ∀ d : CodePoint, isAlphanumeric d = false → d ∉ text "_.:-" → d ∉ c :: rest := by
      intro d halpha hmark hmem
      rcases List.mem_cons.mp hmem with rfl | hmem
      · rw [halpha] at hfirst
        cases hfirst
      · have hclass := List.all_eq_true.mp hrest d hmem
        rw [halpha, Bool.false_or, decide_eq_true_eq] at hclass
        exact hmark hclass
    refine ⟨hout _ (by decide +kernel) (by decide +kernel),
      hout _ (by decide +kernel) (by decide +kernel),
      hout _ (by decide +kernel) (by decide +kernel), fun hdot => ?_, fun hdots => ?_⟩
    · have hlen := congrArg List.length hdot
      rw [List.length_cons, show (text ".").length = 1 by decide +kernel] at hlen
      omega
    · have hlen := congrArg List.length hdots
      rw [List.length_cons, show (text "..").length = 2 by decide +kernel] at hlen
      omega

theorem format_append (ident : Text) {l : List Char} (h : '{' ∉ l) (rest : List Char) :
    format ident (l ++ rest) = l.map codePoint ++ format ident rest := by
  induction l with
  | nil => rfl
  | cons c l ih =>
    simp only [List.mem_cons, not_or] at h
    have hc : c ≠ '{' := Ne.symm h.1
    rw [List.cons_append, List.map_cons, List.cons_append, ← ih h.2]
    exact format.eq_2 _ _ _ fun _ heq _ => hc heq

def placeholder : List Char := ['{', 'i', 'd', '}']

/-- A template as the placeholder splits it. -/
def beforePlaceholder (tool : Tool) : List Char := tool.template.toList.takeWhile (· ≠ '{')

def afterPlaceholder (tool : Tool) : List Char :=
  (tool.template.toList.dropWhile (· ≠ '{')).drop 4

/-- The identifier stands alone between two slashes, or behind the last one. -/
theorem format_segment {entry : String × Tool} (h : entry ∈ tools) (harg : entry.2.arg.isSome)
    (ident : Text) : ∃ before after, entry.2.template.toList = before ++ placeholder ++ after ∧
      format ident entry.2.template.toList =
        before.map codePoint ++ ident ++ after.map codePoint ∧
      before.getLast? = some '/' ∧ (after.head? = none ∨ after.head? = some '/') := by
  have htemplates : ∀ entry ∈ tools.filter (fun e => e.2.arg.isSome),
      entry.2.template.toList =
          beforePlaceholder entry.2 ++ placeholder ++ afterPlaceholder entry.2 ∧
        ('{' ∉ beforePlaceholder entry.2 ∧ '{' ∉ afterPlaceholder entry.2) ∧
        (beforePlaceholder entry.2).getLast? = some '/' ∧
        ((afterPlaceholder entry.2).head? = none ∨
          (afterPlaceholder entry.2).head? = some '/') := by
    decide +kernel
  obtain ⟨htemplate, ⟨hbefore, hafter⟩, hborders⟩ :=
    htemplates entry (List.mem_filter.mpr ⟨h, harg⟩)
  have hrest : format ident (afterPlaceholder entry.2) =
      (afterPlaceholder entry.2).map codePoint := by
    have hall := format_append ident hafter []
    rw [List.append_nil] at hall
    rw [hall, format, List.append_nil]
  have hfilled : format ident (placeholder ++ afterPlaceholder entry.2) =
      ident ++ format ident (afterPlaceholder entry.2) := rfl
  refine ⟨_, _, htemplate, ?_, hborders⟩
  rw [htemplate, List.append_assoc, format_append ident hbefore, hfilled, hrest,
    List.append_assoc]

end Paths

section Answers

/-- The paths of the tools, with an identifier where the template has a placeholder. -/
def Registered (path : Text) : Prop :=
  ∃ entry ∈ tools, (entry.2.arg = none ∧ path = text entry.2.template) ∨
    (entry.2.arg.isSome ∧ ∃ ident, IsIdentifier ident ∧
      path = format ident entry.2.template.toList)

/-- A response to the request with this identifier. -/
def Answers (ident response : Value) : Prop :=
  (∃ value, response = result ident value) ∨ ∃ code message, response = error ident code message

def WellFormed (fields : List (Text × Value)) (method : Text) : Prop :=
  get "jsonrpc" fields = some (str "2.0") ∧ get "method" fields = some (.str method)

/-- The message asks for the handshake and is answered with the greeting. -/
def Accepts (msg : Value) (outcome : Outcome) : Prop :=
  ∃ fields ident, msg = .dict fields ∧ WellFormed fields (text "initialize") ∧
    get "id" fields = some ident ∧ outcome.response = some (result ident greeting)

/-- The message is the notification that ends the handshake. -/
def Notifies (msg : Value) : Prop :=
  ∃ fields, msg = .dict fields ∧ WellFormed fields (text "notifications/initialized") ∧
    get "id" fields = none

variable {server : ReadOnlyMCP} {http : Http} {state : Handshake}

/-- The requests that a message makes: at most one, and only after the handshake. -/
def Asks (server : ReadOnlyMCP) (state : Handshake) (outcome : Outcome) : Prop :=
  outcome.requests = [] ∨
    (state.ready ∧ ∃ path, Registered path ∧ outcome.requests = [request server path])

/-- What handling a request does. -/
structure Handled (server : ReadOnlyMCP) (state : Handshake) (ident : Value) (method : Text)
    (outcome : Outcome) : Prop where
  answered : ∃ v, outcome.response = some v ∧ Answers ident v
  asks : Asks server state outcome
  state : outcome.state = state ∨
    (method = text "initialize" ∧ outcome.response = some (result ident greeting) ∧
      outcome.state = { state with initialized := true })

theorem handled_error (ident : Value) (method : Text) (code : ℤ) (message : String) :
    Handled server state ident method (reply state (error ident code message)) where
  answered := ⟨_, rfl, Or.inr ⟨code, message, rfl⟩⟩
  asks := Or.inl rfl
  state := Or.inl rfl

theorem handled_result (ident : Value) (method : Text) (value : Value) :
    Handled server state ident method (reply state (result ident value)) where
  answered := ⟨_, rfl, Or.inl ⟨value, rfl⟩⟩
  asks := Or.inl rfl
  state := Or.inl rfl

theorem handled_fetchTool (ident : Value) (method path : Text) (hready : state.ready)
    (hpath : Registered path) :
    Handled server state ident method (fetchTool server http state ident path) := by
  unfold fetchTool
  dsimp only
  split
  · exact ⟨⟨_, rfl, Or.inl ⟨_, rfl⟩⟩, Or.inr ⟨hready, path, hpath, rfl⟩, Or.inl rfl⟩
  · exact ⟨⟨_, rfl, Or.inl ⟨_, rfl⟩⟩, Or.inr ⟨hready, path, hpath, rfl⟩, Or.inl rfl⟩

/-- A name of the table is found in it. -/
theorem exists_tool {name : Text} (h : name ∈ tools.map fun tool => text tool.1) :
    ∃ entry ∈ tools, Dict.find name (tools.map fun tool => (text tool.1, tool.2)) =
      some entry.2 := by
  obtain hnone | ⟨tool, hsome⟩ := Option.eq_none_or_eq_some
    (Dict.find name (tools.map fun tool => (text tool.1, tool.2)))
  · have hnot := Dict.find_eq_none_iff.mp hnone
    rw [List.map_map] at hnot
    exact absurd h hnot
  · obtain ⟨entry, hentry, heq⟩ := List.mem_map.mp (Dict.mem_of_find hsome)
    refine ⟨entry, hentry, ?_⟩
    rw [hsome, ← (Prod.mk.inj heq).2]

/-- An argument that the keys require is found. -/
theorem exists_argument {args : List (Text × Value)} {arg : String}
    (h : SameKeys args [text arg]) : ∃ v, get arg args = some v := by
  obtain hnone | hsome := Option.eq_none_or_eq_some (get arg args)
  · exact absurd (h.2 _ List.mem_cons_self) (Dict.find_eq_none_iff.mp hnone)
  · exact hsome

theorem callTool_total (ident : Value) (method : Text) (params : List (Text × Value))
    (hready : state.ready) : ∃ outcome, callTool server http state ident params = .ok outcome ∧
      Handled server state ident method outcome := by
  unfold callTool
  split
  · rename_i name args _ _
    split
    · rename_i hname
      obtain ⟨entry, hentry, hfind⟩ := exists_tool hname
      rw [hfind, fetch, ok_bind]
      split
      · rename_i hkeys
        obtain harg | ⟨arg, harg⟩ := Option.eq_none_or_eq_some entry.2.arg
        · rw [harg]
          exact ⟨_, rfl, handled_fetchTool ident method _ hready
            ⟨entry, hentry, Or.inl ⟨harg, rfl⟩⟩⟩
        · rw [harg] at hkeys ⊢
          obtain ⟨value, hvalue⟩ := exists_argument hkeys
          dsimp only
          rw [hvalue, fetch, ok_bind]
          split
          · rename_i s
            split
            · rename_i hident
              exact ⟨_, rfl, handled_fetchTool ident method _ hready
                ⟨entry, hentry, Or.inr ⟨by rw [harg]; rfl, s, hident, rfl⟩⟩⟩
            · exact ⟨_, rfl, handled_error _ _ _ _⟩
          · exact ⟨_, rfl, handled_error _ _ _ _⟩
      · exact ⟨_, rfl, handled_error _ _ _ _⟩
    · exact ⟨_, rfl, handled_error _ _ _ _⟩
  · exact ⟨_, rfl, handled_error _ _ _ _⟩

variable (server http state) in
theorem handle_total (ident : Value) (method : Text) (params : List (Text × Value)) :
    ∃ outcome, handle server http state ident method params = .ok outcome ∧
      Handled server state ident method outcome := by
  unfold handle
  split
  · rename_i hmethod
    split
    · exact ⟨_, rfl, handled_error _ _ _ _⟩
    · split
      · exact ⟨_, rfl, ⟨_, rfl, Or.inl ⟨_, rfl⟩⟩, Or.inl rfl, Or.inr ⟨hmethod, rfl, rfl⟩⟩
      · exact ⟨_, rfl, handled_error _ _ _ _⟩
  · split
    · exact ⟨_, rfl, handled_result _ _ _⟩
    · split
      · exact ⟨_, rfl, handled_error _ _ _ _⟩
      · rename_i hready
        split
        · exact ⟨_, rfl, handled_result _ _ _⟩
        · split
          · exact ⟨_, rfl, handled_error _ _ _ _⟩
          · exact callTool_total ident method params (not_not.mp hready)

/-- What dispatching a message does. -/
structure Dispatched (server : ReadOnlyMCP) (state : Handshake) (msg : Value)
    (outcome : Outcome) : Prop where
  asks : Asks server state outcome
  state : outcome.state = state ∨
    (Accepts msg outcome ∧ outcome.state = { state with initialized := true }) ∨
    (Notifies msg ∧ state.initialized ∧ outcome.state = { state with ready := true })
  silent : ∀ fields method, msg = .dict fields → WellFormed fields method →
    get "id" fields = none → outcome.response = none
  answered : ∀ fields method ident, msg = .dict fields → WellFormed fields method →
    get "id" fields = some ident → ∃ v, outcome.response = some v ∧ Answers ident v

/-- A message that is not well formed is answered with an error. -/
theorem dispatched_malformed {msg : Value} (code : ℤ) (message : String)
    (h : ∀ fields method, msg = .dict fields → ¬ WellFormed fields method) :
    Dispatched server state msg (reply state (error .null code message)) where
  asks := Or.inl rfl
  state := Or.inl rfl
  silent := fun fields method hmsg hwell => absurd hwell (h fields method hmsg)
  answered := fun fields method _ hmsg hwell => absurd hwell (h fields method hmsg)

theorem dispatched_silent {fields : List (Text × Value)} {outcome : Outcome}
    (hident : get "id" fields = none) (hrequests : outcome.requests = [])
    (hresponse : outcome.response = none)
    (hstate : outcome.state = state ∨ (Notifies (.dict fields) ∧ state.initialized ∧
      outcome.state = { state with ready := true })) :
    Dispatched server state (.dict fields) outcome where
  asks := Or.inl hrequests
  state := hstate.imp_right Or.inr
  silent := fun _ _ _ _ _ => hresponse
  answered := by
    intro fields' method ident hmsg _ hsome
    rw [← Value.dict.inj hmsg, hident] at hsome
    cases hsome

theorem dispatched_handled {fields : List (Text × Value)} {method : Text} {ident : Value}
    {outcome : Outcome} (hwell : WellFormed fields method) (hident : get "id" fields = some ident)
    (h : Handled server state ident method outcome) :
    Dispatched server state (.dict fields) outcome where
  asks := h.asks
  state := by
    rcases h.state with hsame | ⟨hmethod, hresponse, hstate⟩
    · exact Or.inl hsame
    · rw [hmethod] at hwell
      exact Or.inr (Or.inl ⟨⟨fields, ident, rfl, hwell, hident, hresponse⟩, hstate⟩)
  silent := by
    intro fields' _ hmsg _ hnone
    rw [← Value.dict.inj hmsg, hident] at hnone
    cases hnone
  answered := by
    intro fields' _ ident' hmsg _ hsome
    rw [← Value.dict.inj hmsg, hident] at hsome
    rw [← Option.some.inj hsome]
    exact h.answered

variable (server http state) in
theorem dispatch_total (msg : Value) : ∃ outcome,
    dispatch server http state msg = .ok outcome ∧ Dispatched server state msg outcome := by
  unfold dispatch
  split
  · rename_i fields
    split
    · rename_i hversion
      refine ⟨_, rfl, dispatched_malformed _ _ fun fields' method hmsg hwell => hversion ?_⟩
      rw [Value.dict.inj hmsg]
      exact hwell.1
    · rename_i hversion
      split
      · rename_i method hmethod
        have hwell : WellFormed fields method := ⟨not_not.mp hversion, hmethod⟩
        split
        · rename_i hident
          split
          · rename_i hnotice
            rw [hnotice.1] at hwell
            exact ⟨_, rfl, dispatched_silent hident rfl rfl
              (Or.inr ⟨⟨fields, rfl, hwell, hident⟩, hnotice.2, rfl⟩)⟩
          · exact ⟨_, rfl, dispatched_silent hident rfl rfl (Or.inl rfl)⟩
        · rename_i ident hident
          split
          · split
            · obtain ⟨outcome, hok, hhandled⟩ := handle_total server http state ident method _
              exact ⟨outcome, hok, dispatched_handled hwell hident hhandled⟩
            · exact ⟨_, rfl, dispatched_handled hwell hident (handled_error ident method _ _)⟩
          · exact ⟨_, rfl, dispatched_handled hwell hident (handled_error ident method _ _)⟩
      · rename_i hmethod
        refine ⟨_, rfl, dispatched_malformed _ _ fun fields' method hmsg hwell => ?_⟩
        rw [← Value.dict.inj hmsg] at hwell
        exact hmethod method hwell.2
  · rename_i hdict
    exact ⟨_, rfl, dispatched_malformed _ _ fun fields _ hmsg _ => hdict fields hmsg⟩

end Answers

section Conversations

/-- A message, the client that serves it, and what comes of it. -/
structure Step where
  pre : Handshake
  http : Http
  msg : Value
  outcome : Outcome

/-- A server from its start on. -/
def system (server : ReadOnlyMCP) : System Handshake Step where
  init := ⟨false, false⟩
  pre := Step.pre
  post := fun s => s.outcome.state
  allowed := fun _ s => dispatch server s.http s.pre s.msg = .ok s.outcome

/-- The steps of a conversation, when no message raises. -/
def converse (server : ReadOnlyMCP) : Handshake → List (Http × Value) → Except Raised (List Step)
  | _, [] => .ok []
  | state, (http, msg) :: inputs => do
    let outcome ← dispatch server http state msg
    let steps ← converse server outcome.state inputs
    return ⟨state, http, msg, outcome⟩ :: steps

variable {server : ReadOnlyMCP} {state : Handshake} {steps : List Step}

theorem dispatched_of_allowed {s : Step} {http : Http}
    (h : dispatch server http s.pre s.msg = .ok s.outcome) :
    Dispatched server s.pre s.msg s.outcome := by
  obtain ⟨outcome, hok, hdispatched⟩ := dispatch_total server http s.pre s.msg
  rw [h] at hok
  rw [Except.ok.inj hok]
  exact hdispatched

/-- An accepted first request, and later the notification. -/
def Completed (steps : List Step) : Prop :=
  ∃ before i mid n after, steps = before ++ i :: (mid ++ n :: after) ∧
    Accepts i.msg i.outcome ∧ Notifies n.msg

/-- What the flags say about the messages so far. -/
structure Remembers (steps : List Step) (state : Handshake) : Prop where
  initialized : state.initialized →
    ∃ before i after, steps = before ++ i :: after ∧ Accepts i.msg i.outcome
  ready : state.ready → Completed steps

theorem Remembers.snoc {s : Step} (h : Remembers steps state) : Remembers (steps ++ [s]) state where
  initialized := by
    intro hinit
    obtain ⟨before, i, after, rfl, hi⟩ := h.initialized hinit
    exact ⟨before, i, after ++ [s], by simp, hi⟩
  ready := by
    intro hready
    obtain ⟨before, i, mid, n, after, rfl, hi, hn⟩ := h.ready hready
    exact ⟨before, i, mid, n, after ++ [s], by simp, hi, hn⟩

theorem remembers_of_run (h : Run (system server) steps state) : Remembers steps state := by
  induction h with
  | start => exact ⟨fun hinit => absurd hinit Bool.false_ne_true,
      fun hready => absurd hready Bool.false_ne_true⟩
  | @next steps s before now ih =>
    change Remembers steps s.pre at ih
    have hlater : Remembers (steps ++ [s]) s.pre := ih.snoc
    change Remembers (steps ++ [s]) s.outcome.state
    rcases (dispatched_of_allowed now).state with hsame | ⟨hi, hstate⟩ | ⟨hn, hinit, hstate⟩
    · rw [hsame]
      exact hlater
    · rw [hstate]
      exact ⟨fun _ => ⟨steps, s, [], rfl, hi⟩, hlater.ready⟩
    · rw [hstate]
      refine ⟨hlater.initialized, fun _ => ?_⟩
      obtain ⟨earlier, i, mid, rfl, hi⟩ := ih.initialized hinit
      exact ⟨earlier, i, mid, s, [], by simp, hi, hn⟩

/-- Every sequence of messages is a conversation. -/
theorem run_converse {before : List Step} (h : Run (system server) before state)
    (inputs : List (Http × Value)) : ∃ steps, converse server state inputs = .ok steps ∧
      steps.map (fun s => (s.http, s.msg)) = inputs ∧
      ∃ last, Run (system server) (before ++ steps) last := by
  induction inputs generalizing before state with
  | nil => exact ⟨[], rfl, rfl, state, by simpa using h⟩
  | cons input inputs ih =>
    obtain ⟨http, msg⟩ := input
    obtain ⟨outcome, hok, _⟩ := dispatch_total server http state msg
    have hrun : Run (system server) (before ++ [⟨state, http, msg, outcome⟩]) outcome.state :=
      Run.next (S := system server) (s := ⟨state, http, msg, outcome⟩) h hok
    obtain ⟨steps, hsteps, hmap, last, hlast⟩ := ih hrun
    refine ⟨⟨state, http, msg, outcome⟩ :: steps, ?_, ?_, last, ?_⟩
    · unfold converse
      rw [hok, ok_bind, hsteps]
      rfl
    · rw [List.map_cons, hmap]
    · simpa using hlast

/-- A path of the table, with one segment that is an identifier where the template
has its placeholder. -/
def IsToolPath (path : Text) : Prop :=
  ∃ entry ∈ tools, (entry.2.arg = none ∧ path = text entry.2.template) ∨
    ∃ ident before after, IsIdentifier ident ∧ IsSegment ident ∧
      entry.2.template.toList = before ++ placeholder ++ after ∧
      path = before.map codePoint ++ ident ++ after.map codePoint ∧
      before.getLast? = some '/' ∧ (after.head? = none ∨ after.head? = some '/')

theorem isToolPath_of_registered {path : Text} (h : Registered path) : IsToolPath path := by
  obtain ⟨entry, hentry, ⟨harg, hpath⟩ | ⟨harg, ident, hident, hpath⟩⟩ := h
  · exact ⟨entry, hentry, Or.inl ⟨harg, hpath⟩⟩
  · obtain ⟨before, after, htemplate, hformat, hborders⟩ := format_segment hentry harg ident
    exact ⟨entry, hentry, Or.inr ⟨ident, before, after, hident, hident.isSegment, htemplate,
      hpath.trans hformat, hborders⟩⟩

/-- A conversation of any messages: none raises; a request to the service is a read
of a registered path, and comes after the handshake; a notification is not
answered, and a request is, with its identifier. -/
theorem conversation_law (server : ReadOnlyMCP) (inputs : List (Http × Value)) :
    ∃ steps, converse server ⟨false, false⟩ inputs = .ok steps ∧
      steps.map (fun s => (s.http, s.msg)) = inputs ∧
      (∀ before s after, steps = before ++ s :: after → ∀ sent ∈ s.outcome.requests,
        sent.method = "GET" ∧ (∃ path, IsToolPath path ∧ sent.url = server.base ++ path) ∧
        Completed before) ∧
      ∀ s ∈ steps, ∀ fields method, s.msg = .dict fields → WellFormed fields method →
        (get "id" fields = none → s.outcome.response = none) ∧
        ∀ ident, get "id" fields = some ident →
          ∃ response, s.outcome.response = some response ∧ Answers ident response := by
  have hstart : Run (system server) [] ⟨false, false⟩ := .start
  obtain ⟨steps, hsteps, hmap, last, hrun⟩ := run_converse hstart inputs
  rw [List.nil_append] at hrun
  refine ⟨steps, hsteps, hmap, ?_, ?_⟩
  · rintro before s after rfl sent hsent
    obtain ⟨hbefore, hnow, _⟩ := hrun.at_step
    rcases (dispatched_of_allowed hnow).asks with hnone | ⟨hready, path, hpath, hone⟩
    · rw [hnone] at hsent
      cases hsent
    · rw [hone, List.mem_singleton] at hsent
      rw [hsent]
      exact ⟨rfl, ⟨path, isToolPath_of_registered hpath, rfl⟩,
        (remembers_of_run hbefore).ready hready⟩
  · intro s hs fields method hmsg hwell
    obtain ⟨before, after, rfl⟩ := List.append_of_mem hs
    have hdispatched := dispatched_of_allowed hrun.at_step.2.1
    exact ⟨hdispatched.silent fields method hmsg hwell,
      fun ident => hdispatched.answered fields method ident hmsg hwell⟩

/-- The handshake and one call. -/
def talk : List (Http × Value) := [
  (fun _ => none, record [("jsonrpc", str "2.0"), ("id", .int 1), ("method", str "initialize"),
    ("params", record [("protocolVersion", str "2025-06-18")])]),
  (fun _ => none, record [("jsonrpc", str "2.0"), ("method", str "notifications/initialized")]),
  (fun _ => none, record [("jsonrpc", str "2.0"), ("id", .int 3), ("method", str "tools/call"),
    ("params", record [("name", str "memoryguard_sources"),
      ("arguments", record [("case_id", str "case_123")])])])]

example : ((converse ⟨text "http://127.0.0.1:8000", text "v"⟩ ⟨false, false⟩ talk).map fun steps =>
    steps.flatMap fun s => s.outcome.requests.map Request.url) =
      .ok [text "http://127.0.0.1:8000/api/v2/cases/case_123/dossier"] := by
  decide +kernel

end Conversations

end MemoryGuard.ReadOnlyMcp
