import Wenlan.Imports.BulkIngest
import Wenlan.Support.Json
import Wenlan.Support.KeyTable
import Wenlan.Support.Trail

/-!
# The current branch of a chat export

`walk_current_branch` of `chat_import/chatgpt.rs` and `flatten_current_branch` of
`chat_import/claude.rs`, with `pair_messages`.  Numbers of a document are kept as they are read;
what `chrono` makes of a time is the world's.
-/

namespace Wenlan.Imports

open Support Pointers

inductive MessageRole where
  | user
  | assistant
  deriving DecidableEq

structure RoledMessage extends ParsedMessage where
  role : MessageRole

def combine (user asst : RoledMessage) : RoledMessage where
  role := .assistant
  content := "User: " ++ user.content ++ "\nAssistant: " ++ asst.content
  createdAt := asst.createdAt

def pairMessages : List RoledMessage → List RoledMessage
  | user :: asst :: rest =>
    if user.role = .user ∧ asst.role = .assistant then combine user asst :: pairMessages rest
    else pairMessages (asst :: rest)
  | _ => []

/-- The text of a message counts if there is any. -/
def roledMessage (role : Option MessageRole) (content : String) (createdAt : Option Int) :
    Option RoledMessage :=
  match role with
  | none => none
  | some role => if content.isEmpty then none else some ⟨⟨content, createdAt⟩, role⟩

variable {ν : Type}

structure RawChatGptMessage (ν : Type) where
  role : String
  contentType : String
  parts : List (Json ν)
  createTime : Option ν

structure RawChatGptNode (ν : Type) where
  parent : Option String
  message : Option (RawChatGptMessage ν)

structure RawChatGptConversation (ν : Type) where
  currentNode : Option String
  mapping : KeyTable String (RawChatGptNode ν)

namespace RawChatGptMessage

def asStr : Json ν → Option String
  | .str text => some text
  | _ => none

def extractContent (message : RawChatGptMessage ν) : String :=
  if message.contentType = "text" ∨ message.contentType = "multimodal_text" then
    "\n".intercalate (message.parts.filterMap asStr)
  else ""

def messageRole (message : RawChatGptMessage ν) : Option MessageRole :=
  if message.role = "user" then some .user
  else if message.role = "assistant" then some .assistant
  else none

end RawChatGptMessage

def RawChatGptNode.parsed (floatToUtc : ν → Option Int) (node : RawChatGptNode ν) :
    Option RoledMessage :=
  match node.message with
  | none => none
  | some message =>
    roledMessage message.messageRole message.extractContent (message.createTime.bind floatToUtc)

namespace RawChatGptConversation

/-- The loop; `none` if it ends without a terminal node. -/
def walkBack (raw : RawChatGptConversation ν) :
    ℕ → String → List (RawChatGptNode ν) → Option (List (RawChatGptNode ν))
  | 0, _, _ => none
  | steps + 1, currentId, chain =>
    match raw.mapping.lookup currentId with
    | none => some chain
    | some node =>
      match node.parent with
      | none => some (chain ++ [node])
      | some parentId =>
        match raw.mapping.lookup parentId with
        | none => some (chain ++ [node])
        | some parentNode =>
          if parentNode.message.isNone then some (chain ++ [node])
          else walkBack raw steps parentId (chain ++ [node])

def walkCurrentBranch (floatToUtc : ν → Option Int) (raw : RawChatGptConversation ν) :
    List RoledMessage :=
  match raw.currentNode with
  | none => []
  | some currentNodeId =>
    if (raw.mapping.lookup currentNodeId).isNone then []
    else
      match raw.walkBack 100000 currentNodeId [] with
      | none => []
      | some chain => pairMessages (chain.reverse.filterMap (·.parsed floatToUtc))

end RawChatGptConversation

structure RawClaudeContentBlock where
  blockType : String
  text : String

structure RawClaudeMessage where
  uuid : String
  text : String
  content : List RawClaudeContentBlock
  sender : String
  createdAt : String
  parentMessageUuid : String

def rootParentSentinel : String := "00000000-0000-4000-8000-000000000000"

namespace RawClaudeMessage

def extractContent (raw : RawClaudeMessage) : String :=
  let contentText := String.join ((raw.content.filter (·.blockType = "text")).map (·.text))
  if !contentText.isEmpty then contentText
  else if !raw.text.isEmpty then raw.text
  else ""

def messageRole (raw : RawClaudeMessage) : Option MessageRole :=
  if raw.sender = "human" then some .user
  else if raw.sender = "assistant" then some .assistant
  else none

def parsed (parseIso8601 : String → Option Int) (raw : RawClaudeMessage) : Option RoledMessage :=
  roledMessage raw.messageRole raw.extractContent (parseIso8601 raw.createdAt)

/-- Of two messages with one id the lookup holds the later. -/
def byUuid (messages : List RawClaudeMessage) (uuid : String) : Option RawClaudeMessage :=
  messages.reverse.find? (·.uuid = uuid)

def walkBack (messages : List RawClaudeMessage) :
    ℕ → RawClaudeMessage → List RawClaudeMessage → Option (List RawClaudeMessage)
  | 0, _, _ => none
  | steps + 1, current, chain =>
    if current.parentMessageUuid = rootParentSentinel then some (chain ++ [current])
    else
      match byUuid messages current.parentMessageUuid with
      | some parent => walkBack messages steps parent (chain ++ [current])
      | none => some (chain ++ [current])

def flattenCurrentBranch (parseIso8601 : String → Option Int) (messages : List RawClaudeMessage) :
    List RoledMessage :=
  match messages.getLast? with
  | none => []
  | some last =>
    match walkBack messages 100000 last [] with
    | none => []
    | some chain => pairMessages (chain.reverse.filterMap (·.parsed parseIso8601))

end RawClaudeMessage

/-! ## Pairs -/

def UserThenAssistant (messages : List RoledMessage) (i : ℕ) : Prop :=
  ∃ user asst, messages[i]? = some user ∧ messages[i + 1]? = some asst ∧
    user.role = .user ∧ asst.role = .assistant

/-- `out` has one message for every user message directly followed by an assistant's, in order, and
no message is in two pairs. -/
def Pairing (messages out : List RoledMessage) : Prop :=
  ∃ starts : List ℕ, starts.Pairwise (fun i j => i + 2 ≤ j) ∧
    (∀ i, i ∈ starts ↔ UserThenAssistant messages i) ∧
    List.Forall₂ (fun i pair => ∃ user asst, messages[i]? = some user ∧
      messages[i + 1]? = some asst ∧ pair = combine user asst) starts out

theorem pairMessages_pairing (messages : List RoledMessage) :
    Pairing messages (pairMessages messages) := by
  induction messages using pairMessages.induct with
  | case1 user asst rest hpair ih =>
    obtain ⟨starts, hsorted, hstarts, hout⟩ := ih
    refine ⟨0 :: starts.map (· + 2), ?_, ?_, ?_⟩
    · refine List.pairwise_cons.mpr ⟨by simp, ?_⟩
      rw [List.pairwise_map]
      exact hsorted.imp fun h => by omega
    · intro i
      match i with
      | 0 => simp [UserThenAssistant, hpair]
      | 1 => simp [UserThenAssistant, hpair.2]
      | i + 2 => simpa [UserThenAssistant] using hstarts i
    · rw [pairMessages, if_pos hpair]
      refine .cons ⟨user, asst, rfl, rfl, rfl⟩ ?_
      rw [List.forall₂_map_left_iff]
      exact hout
  | case2 user asst rest hpair ih =>
    obtain ⟨starts, hsorted, hstarts, hout⟩ := ih
    refine ⟨starts.map (· + 1), ?_, ?_, ?_⟩
    · rw [List.pairwise_map]
      exact hsorted.imp fun h => by omega
    · intro i
      cases i with
      | zero => simpa [UserThenAssistant] using hpair
      | succ i => simpa [UserThenAssistant] using hstarts i
    · rw [pairMessages, if_neg hpair, List.forall₂_map_left_iff]
      exact hout
  | case3 messages hshort =>
    refine ⟨[], .nil, fun i => ?_, ?_⟩
    · suffices ¬ UserThenAssistant messages i by simpa using this
      rintro ⟨user, asst, huser, hasst, -⟩
      match messages with
      | [] => simp at huser
      | [_] => simp at hasst
      | first :: second :: rest => exact hshort _ _ _ rfl
    · rw [pairMessages.eq_def]
      split
      · exact absurd rfl (hshort _ _ _)
      · exact .nil

def pairsOf {α : Type} (messagesOf : List α → List RoledMessage) (trail : Option (List α)) :
    List RoledMessage :=
  match trail with
  | none => []
  | some trail => pairMessages (messagesOf trail)

/-! ## Chains of parents -/

namespace RawChatGptConversation

variable {raw : RawChatGptConversation ν}

def parentOf (raw : RawChatGptConversation ν) (id : String) : Option String :=
  match raw.mapping.lookup id with
  | none => none
  | some node =>
    match node.parent with
    | none => none
    | some parentId => if parentId ∈ raw.mapping then some parentId else none

def hasMessage (raw : RawChatGptConversation ν) (id : String) : Bool :=
  match raw.mapping.lookup id with
  | none => false
  | some node => node.message.isSome

/-- A parent without a message ends the branch. -/
def branchParent (raw : RawChatGptConversation ν) (id : String) : Option String :=
  match raw.parentOf id with
  | none => none
  | some parentId => if raw.hasMessage parentId then some parentId else none

def messagesOf (floatToUtc : ν → Option Int) (raw : RawChatGptConversation ν)
    (trail : List String) : List RoledMessage :=
  (trail.filterMap raw.mapping.lookup).reverse.filterMap (·.parsed floatToUtc)

theorem branchParent_mem {id parentId : String} (h : raw.branchParent id = some parentId) :
    parentId ∈ raw.mapping.keys := by
  unfold branchParent parentOf at h
  aesop

/-- The loop collects the nodes of the trail. -/
theorem walkBack_eq {steps : ℕ} {id : String} {chain : List (RawChatGptNode ν)}
    (hid : id ∈ raw.mapping) :
    raw.walkBack steps id chain = (walk raw.branchParent steps id).map
      fun trail => chain ++ trail.filterMap raw.mapping.lookup := by
  induction steps generalizing id chain with
  | zero => rfl
  | succ steps ih =>
    obtain ⟨node, hnode⟩ := Option.isSome_iff_exists.mp (AList.lookup_isSome.mpr hid)
    unfold walkBack walk branchParent parentOf
    cases hparent : node.parent with
    | none => simp [hnode, hparent]
    | some parentId =>
      cases hlookup : raw.mapping.lookup parentId with
      | none =>
        have hmem : parentId ∉ raw.mapping := AList.lookup_eq_none.mp hlookup
        simp [hnode, hparent, hlookup, hmem]
      | some parentNode =>
        have hmem : parentId ∈ raw.mapping := AList.lookup_isSome.mp (by simp [hlookup])
        cases hmessage : parentNode.message with
        | none => simp [hnode, hparent, hlookup, hmem, hasMessage, hmessage]
        | some message =>
          have hstep : raw.hasMessage parentId := by simp [hasMessage, hlookup, hmessage]
          simp only [hnode, hparent, hlookup, hmessage, hmem, hstep, Option.isNone_some,
            Bool.false_eq_true, if_false, if_true]
          rw [ih hmem, Option.map_map]
          congr 1
          funext trail
          simp [hnode]

theorem walkCurrentBranch_eq {floatToUtc : ν → Option Int} {id : String}
    (hcurrent : raw.currentNode = some id) (hid : id ∈ raw.mapping) :
    raw.walkCurrentBranch floatToUtc =
      pairsOf (raw.messagesOf floatToUtc) (walk raw.branchParent 100000 id) := by
  have hfound : (raw.mapping.lookup id).isNone = false := by
    simpa using AList.lookup_isSome.mpr hid
  unfold walkCurrentBranch pairsOf messagesOf
  simp only [hcurrent, hfound, Bool.false_eq_true, if_false, walkBack_eq hid]
  cases walk raw.branchParent 100000 id with
  | none => rfl
  | some trail => rfl

/-- The branch is the chain of parents up to the first without a message. -/
theorem trail_branchParent {id : String} {trail : List String}
    (h : Trail raw.parentOf id trail) :
    Trail raw.branchParent id (id :: trail.tail.takeWhile raw.hasMessage) := by
  induction h with
  | last hnone => exact .last (by simp [branchParent, hnone])
  | @step id parentId trail hparent hrest ih =>
    obtain ⟨rest, rfl⟩ : ∃ rest, trail = parentId :: rest := by cases hrest <;> exact ⟨_, rfl⟩
    cases hmessage : raw.hasMessage parentId with
    | true =>
      rw [List.tail_cons, List.takeWhile_cons_of_pos hmessage]
      exact .step (by simp [branchParent, hparent, hmessage]) ih
    | false =>
      rw [List.tail_cons, List.takeWhile_cons_of_neg (by simp [hmessage])]
      exact .last (by simp [branchParent, hparent, hmessage])

end RawChatGptConversation

namespace RawClaudeMessage

variable {messages : List RawClaudeMessage}

def parentOf (messages : List RawClaudeMessage) (raw : RawClaudeMessage) :
    Option RawClaudeMessage :=
  if raw.parentMessageUuid = rootParentSentinel then none
  else byUuid messages raw.parentMessageUuid

def messagesOf (parseIso8601 : String → Option Int) (trail : List RawClaudeMessage) :
    List RoledMessage :=
  trail.reverse.filterMap (·.parsed parseIso8601)

theorem parentOf_mem {raw parent : RawClaudeMessage} (h : parentOf messages raw = some parent) :
    parent ∈ messages := by
  unfold parentOf byUuid at h
  split_ifs at h
  exact List.mem_reverse.mp (List.mem_of_find?_eq_some h)

theorem walkBack_eq {steps : ℕ} {raw : RawClaudeMessage} {chain : List RawClaudeMessage} :
    walkBack messages steps raw chain =
      (walk (parentOf messages) steps raw).map (chain ++ ·) := by
  induction steps generalizing raw chain with
  | zero => rfl
  | succ steps ih =>
    unfold walkBack walk parentOf
    by_cases hroot : raw.parentMessageUuid = rootParentSentinel
    · simp [hroot]
    · rw [if_neg hroot, if_neg hroot]
      cases byUuid messages raw.parentMessageUuid with
      | none => rfl
      | some parent =>
        change walkBack messages steps parent (chain ++ [raw]) =
          Option.map _ (Option.map _ (walk (parentOf messages) steps parent))
        rw [ih, Option.map_map]
        congr 1
        funext trail
        simp

theorem flattenCurrentBranch_eq {parseIso8601 : String → Option Int} {last : RawClaudeMessage}
    (hlast : messages.getLast? = some last) :
    flattenCurrentBranch parseIso8601 messages =
      pairsOf (messagesOf parseIso8601) (walk (parentOf messages) 100000 last) := by
  unfold flattenCurrentBranch pairsOf
  simp only [hlast, walkBack_eq]
  cases walk (parentOf messages) 100000 last with
  | none => rfl
  | some trail => rfl

end RawClaudeMessage

/-! ## What an import reads -/

/-- `out` has the pairs of the whole branch from `leaf`, and nothing of a branch without an end. -/
structure ReadsBranch {α : Type} (next : α → Option α) (leaf : α)
    (messagesOf : List α → List RoledMessage) (out : List RoledMessage) : Prop where
  whole : ∀ trail, Trail next leaf trail → trail.length ≤ 100000 → Pairing (messagesOf trail) out
  cyclic : Cyclic next leaf → out = []
  acyclic : ¬ Cyclic next leaf → ∃ trail, Trail next leaf trail

theorem readsBranch_pairsOf {α : Type} {next : α → Option α} {leaf : α} (places : List α)
    (hplaces : ∀ a b, next a = some b → b ∈ places) (messagesOf : List α → List RoledMessage) :
    ReadsBranch next leaf messagesOf (pairsOf messagesOf (walk next 100000 leaf)) where
  whole := by
    intro trail htrail hlength
    rw [walk_eq_some.mpr ⟨htrail, hlength⟩]
    exact pairMessages_pairing _
  cyclic := by
    intro hcyclic
    cases hwalk : walk next 100000 leaf with
    | none => rfl
    | some trail => exact absurd hcyclic (walk_eq_some.mp hwalk).1.not_cyclic
  acyclic := exists_trail places hplaces

open RawChatGptConversation RawClaudeMessage

namespace RawChatGptConversation

/-- A question and its answer, a node without a message, and a second question. -/
def regenerated : RawChatGptConversation ℕ where
  currentNode := some "again"
  mapping :=
    [⟨"again", some "blank", some ⟨"user", "text", [.str "more"], none⟩⟩,
      ⟨"blank", some "reply", none⟩,
      ⟨"reply", some "first", some ⟨"assistant", "text", [.str "a"], none⟩⟩,
      ⟨"first", none, some ⟨"user", "text", [.str "q"], none⟩⟩].toAList

end RawChatGptConversation

def RawClaudeMessage.question : RawClaudeMessage :=
  ⟨"1", "q", [], "human", "", rootParentSentinel⟩

end Wenlan.Imports
