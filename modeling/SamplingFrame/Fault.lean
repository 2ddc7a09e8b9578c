import SamplingFrame.Catalog.Field
import SamplingFrame.Number.Decimal.Reader

/-!
# Faults of a rule tree

Why a tree of rules has no predicate. A fault says what is wrong and where; its wording is made from
that in one place.
-/

namespace SamplingFrame

/-- Why a payload is not what its operator and field ask for. -/
inductive Reason where
  | notList
  | notRange
  | notRangeText
  | rangeSize (count : Nat)
  | rangeOrder (low high : String)
  | notInteger
  | notFlag
  | dateNotText
  | noBoolean
  | null
  | notScalar
  | blankCode
  | integerText (fault : Whole.Fault)
  | decimalText (fault : Decimal.Fault)
  | dateText
  | flagText
  deriving DecidableEq, Repr

/-- One of the two lists of terms that a group has. -/
inductive TermList where
  | rules
  | groups
  deriving DecidableEq, Repr

/-- Where a list of terms stands: in a chain of clauses, or in the group that is reached by going
down the given indices. -/
inductive Place where
  | chain
  | group (path : List Nat) (list : TermList)
  deriving DecidableEq, Repr

/-- Why a tree of rules has no predicate. -/
inductive Fault where
  | operatorNotAllowed (field : Field) (operator : Operator)
  | badPayload (field : Field) (operator : Operator) (raw : String) (reason : Reason)
  | emptyPayload (field : Field) (operator : Operator)
  | leadingConnective (place : Place)
  | missingConnective (place : Place) (index : Nat)
  | emptyChain
  | noOutputFields
  /-- A payload was read for which the operator has no test; reading never gives one. -/
  | noTest (field : Field) (operator : Operator)
  deriving DecidableEq, Repr

/-- The wording of a reason, for an operator and a type. -/
def Reason.message (operator : Operator) (type : FieldType) : Reason → String
  | .notList => "需要数组或逗号分隔的字符串"
  | .notRange => "需要 [low, high] 数组"
  | .notRangeText => "区间需要 low—high 格式"
  | .rangeSize n =>
    "区间需要 [low, high] 两个元素，当前有 " ++ String.ofList (Whole.digits n) ++ " 个"
  | .rangeOrder low high => "区间下界 " ++ low ++ " 大于上界 " ++ high
  | .notInteger => "不是整数"
  | .notFlag => "布尔值只接受 0 或 1"
  | .dateNotText => "日期必须是字符串"
  | .noBoolean => type.name ++ " 字段不接受布尔值"
  | .null => "值不能为空"
  | .notScalar => operator.name ++ " 需要标量值"
  | .blankCode => "代码不能为空"
  | .integerText fault => fault.message
  | .decimalText fault => fault.message
  | .dateText => "日期需要 YYYY-MM-DD 或 RFC 3339 格式"
  | .flagText => "无法解析布尔值"

/-- The word for a list of terms. -/
def TermList.name : TermList → String
  | .rules => "rules"
  | .groups => "groups"

/-- The steps down to a group. -/
def Place.steps : List Nat → String
  | [] => ""
  | i :: path => ".groups[" ++ String.ofList (Whole.digits i) ++ "]" ++ steps path

/-- The text that names a place. -/
def Place.text : Place → String
  | .chain => "clauses"
  | .group path list => "root" ++ steps path ++ "." ++ list.name

namespace Fault

/-- The three families of faults. -/
inductive Family where
  | validation
  | parse
  | structural
  deriving DecidableEq, Repr

/-- The words that open the message of a family. -/
def Family.heading : Family → String
  | .validation => "规则校验失败: "
  | .parse => "规则值解析失败: "
  | .structural => "规则结构错误: "

/-- The family of a fault. -/
def family : Fault → Family
  | .operatorNotAllowed .. => .validation
  | .badPayload .. => .parse
  | .emptyPayload .. | .leadingConnective .. | .missingConnective .. | .emptyChain
  | .noOutputFields | .noTest .. => .structural

/-- What a fault says. -/
def detail : Fault → String
  | .operatorNotAllowed f op => "字段 " ++ f.label ++ " 不支持操作符 " ++ op.name
  | .badPayload f op raw reason =>
    "字段 " ++ f.label ++ " 的 " ++ op.name ++ " 值 '" ++ raw ++ "' 无效: " ++
      reason.message op f.type
  | .emptyPayload f op => "字段 " ++ f.label ++ " 的 " ++ op.name ++ " 需要非空载荷"
  | .leadingConnective place => place.text ++ " 的第一项不能带组合符"
  | .missingConnective place i =>
    place.text ++ " 的第 " ++ String.ofList (Whole.digits i) ++ " 项缺少组合符"
  | .emptyChain => "子句链不能为空"
  | .noOutputFields => "抽样框必须至少选择一个输出字段"
  | .noTest f op => "字段 " ++ f.label ++ " 的 " ++ op.name ++ " 没有可用的检验"

/-- The whole message: its family and what it says. -/
def message (fault : Fault) : String := fault.family.heading ++ fault.detail

end Fault

end SamplingFrame
