import ChainFeed.Request

/-!
# Matching items against entries

An item matches an entry if every value list of the entry accepts the item's
property.  A list with values never accepts a property that the item lacks; in
particular a list about calls accepts no frame of another kind.  An item pulls in
what any of the matching entries pulls in.
-/

namespace ChainFeed

/-- Whether a list of accepted values accepts a property. -/
def accepts {α : Type} [BEq α] (values : Option (List α)) (property : Option α) : Bool :=
  match values with
  | none | some [] => true
  | some (first :: rest) => property.any (first :: rest).contains

/-- The union over all matching entries of what they pull in, unless none matches. -/
def pullsOf? {ε ρ : Type} (isMatch : ε → Bool) (pulls : ε → ρ) (union : ρ → ρ → ρ) :
    List ε → Option ρ
  | [] => none
  | entry :: rest =>
      let later := pullsOf? isMatch pulls union rest
      if isMatch entry then
        some (later.elim (pulls entry) (union (pulls entry)))
      else
        later

namespace LogPulls

/-- Everything that either pulls in. -/
def union (left right : LogPulls) : LogPulls where
  transaction := left.transaction || right.transaction
  transactionLogs := left.transactionLogs || right.transactionLogs
  transactionTraces := left.transactionTraces || right.transactionTraces
  transactionStateDiffs := left.transactionStateDiffs || right.transactionStateDiffs

end LogPulls

namespace TransactionPulls

/-- Everything that either pulls in. -/
def union (left right : TransactionPulls) : TransactionPulls where
  logs := left.logs || right.logs
  traces := left.traces || right.traces
  stateDiffs := left.stateDiffs || right.stateDiffs

end TransactionPulls

namespace TracePulls

/-- Everything that either pulls in. -/
def union (left right : TracePulls) : TracePulls where
  transaction := left.transaction || right.transaction
  transactionLogs := left.transactionLogs || right.transactionLogs
  subtraces := left.subtraces || right.subtraces
  parents := left.parents || right.parents

end TracePulls

namespace StateDiffPulls

/-- Everything that either pulls in. -/
def union (left right : StateDiffPulls) : StateDiffPulls where
  transaction := left.transaction || right.transaction

end StateDiffPulls

/-- Whether a log matches an entry. -/
def LogEntry.isMatch (entry : LogEntry) (log : Log) : Bool :=
  accepts entry.address log.address &&
    accepts entry.topic0 (log.topic? 0) &&
    accepts entry.topic1 (log.topic? 1) &&
    accepts entry.topic2 (log.topic? 2) &&
    accepts entry.topic3 (log.topic? 3)

/-- Whether a transaction matches an entry. -/
def TransactionEntry.isMatch (entry : TransactionEntry) (transaction : Transaction) : Bool :=
  accepts entry.recipient transaction.recipient &&
    accepts entry.sender transaction.sender &&
    accepts entry.sighash transaction.sighash &&
    accepts entry.type transaction.type

namespace TraceData

/-- The sender of a creation. -/
def createFrom? : TraceData → Option Address
  | create action _ => action.sender
  | _ => none

/-- The recipient of a call. -/
def callTo? : TraceData → Option Address
  | call action _ => action.recipient
  | _ => none

/-- The sender of a call. -/
def callFrom? : TraceData → Option Address
  | call action _ => action.sender
  | _ => none

/-- The selector of the function that a call is for. -/
def callSighash? : TraceData → Option Bytes
  | call action _ => action.sighash
  | _ => none

/-- The account that receives what a destroyed contract held. -/
def refundAddress? : TraceData → Option Address
  | suicide action => action.refundAddress
  | _ => none

/-- The author that a reward goes to. -/
def author? : TraceData → Option Address
  | reward action => action.author
  | _ => none

end TraceData

/-- Whether a trace matches an entry. -/
def TraceEntry.isMatch (entry : TraceEntry) (trace : Trace) : Bool :=
  accepts entry.kind (some trace.kind) &&
    accepts entry.createFrom trace.data.createFrom? &&
    accepts entry.callTo trace.data.callTo? &&
    accepts entry.callFrom trace.data.callFrom? &&
    accepts entry.callSighash trace.data.callSighash? &&
    accepts entry.suicideRefundAddress trace.data.refundAddress? &&
    accepts entry.rewardAuthor trace.data.author?

/-- Whether a state diff matches an entry. -/
def StateDiffEntry.isMatch (entry : StateDiffEntry) (diff : StateDiff) : Bool :=
  accepts entry.address (some diff.address) &&
    accepts entry.key (some diff.key) &&
    accepts entry.kind (some diff.kind)

namespace Request

/-- What a log pulls in, if it is asked for. -/
def logPulls? (request : Request) (log : Log) : Option LogPulls :=
  pullsOf? (·.isMatch log) LogEntry.pulls .union request.logs

/-- What a transaction pulls in, if it is asked for. -/
def transactionPulls? (request : Request) (transaction : Transaction) :
    Option TransactionPulls :=
  pullsOf? (·.isMatch transaction) TransactionEntry.pulls .union request.transactions

/-- What a trace pulls in, if it is asked for. -/
def tracePulls? (request : Request) (trace : Trace) : Option TracePulls :=
  pullsOf? (·.isMatch trace) TraceEntry.pulls .union request.traces

/-- What a state diff pulls in, if it is asked for. -/
def stateDiffPulls? (request : Request) (diff : StateDiff) : Option StateDiffPulls :=
  pullsOf? (·.isMatch diff) StateDiffEntry.pulls .union request.stateDiffs

end Request

end ChainFeed
