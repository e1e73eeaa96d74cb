/-
# Textual rules

The rules that are patterns over the text of a file.  They aim at recall: comments and strings
are not set apart, and nesting is followed only as far as a pattern can express it.
-/
import SolidityScan.Detector

namespace SolidityScan.Catalog

/-- A rule that is a pattern; matches that the guard text precedes are dropped. -/
structure TextualRule where
  id : String
  title : String
  description : String
  severity : Severity
  pattern : String
  guard : Option String := none

/-- The textual rules. -/
def textualRules : List TextualRule := [
  { id := "msg-value-in-loop"
    title := "Using msg.value in a loop"
    description :=
      "Using `msg.value` inside a loop lets the sender re-use the same value on every " ++
      "iteration. This typically shows up in payable multicalls, where one payment is credited " ++
      "once per forwarded call and enables double spending."
    severity := .medium
    pattern :=
      r"for\s*\(.*;.*;.*\)\s*\{[^{}]*\bcall\s*" ++
      r"\{[^{}]*value\s*:\s*msg\.value[^{}]*\}[^{}]*;" ++
      r"|while\s*\(.*\)\s*\{[^{}]*\bcall\s*" ++
      r"\{[^{}]*value\s*:\s*msg\.value[^{}]*\}[^{}]*;" ++
      r"|do\s*\{[^{}]*\bcall\s*" ++
      r"\{[^{}]*value\s*:\s*msg\.value[^{}]*\}[^{}]*;.*" ++
      r"\}\s*while\s*\(.*\)" },
  { id := "repay-when-paused"
    title := "Users cannot repay their debts while the contract is paused"
    description :=
      "A `repay` function guarded by `whenNotPaused` (or another pause check) blocks repayments " ++
      "during a pause. Borrowers can drift into liquidation while paused and then race " ++
      "liquidators once the contract resumes. Repayments should stay available."
    severity := .medium
    pattern :=
      r"(?i)function\s+repay\w*\s*\([^)]*\)\s*(public|external|internal|private)?\s*" ++
      r"((payable\s*)?(virtual\s*)?)?(whenNotPaused|.*pause.*)\s*\{" },
  { id := "division-by-zero"
    title := "Potential division by zero without zero check"
    description :=
      "Division by a variable reverts when it is zero. Make sure a zero check (`require(x != " ++
      "0)` or similar) is in place before the division."
    severity := .low
    pattern := r"\b\w+\s*=\s*\w+\s*/\s*(?!\d)(\w+)\b"
    guard := r"require\s*\(\s*\w+\s*(?:!=|>|>=|<|<=)\s*0\s*\);\s*(?:.*[\r\n]+)?[ \t]*" },
  { id := "division-before-multiplication"
    title := "Division before multiplication"
    description :=
      "Integer division truncates. Dividing before multiplying, as in `(a / b) * c`, loses " ++
      "precision that multiplying first would keep."
    severity := .low
    pattern := r"\(\s*\w+\s*/\s*\w+\s*\)\s*\*\s*\w+" },
  { id := "abi-encode-call"
    title := "Use abi.encodeCall() instead of abi.encodeWithSignature()/abi.encodeWithSelector()"
    description :=
      "Since 0.8.11, `abi.encodeCall()` provides a type-safe encoding utility compared with " ++
      "`abi.encodeWithSignature()` and `abi.encodeWithSelector()`."
    severity := .low
    pattern := r"abi\.(encodeWithSignature|encodeWithSelector)\(([^)]*)\)" },
  { id := "balance-of-this-equality"
    title := "Strict equality on the contract's own token balance"
    description :=
      "A check such as `require(token.balanceOf(address(this)) == x)` can be broken by anyone " ++
      "sending a dust amount of the token to the contract, which makes the call revert."
    severity := .low
    pattern := r"require\(\s*.*\.balanceOf\(address\(this\)\)\s*==" },
  { id := "clone-not-deterministic"
    title := "Use cloneDeterministic rather than clone"
    description :=
      "If a clone is funded within a few blocks of being created by a factory, a reorg lets an " ++
      "attacker take over the address. `cloneDeterministic` derives the address from a salt, " ++
      "and deploying the same implementation and salt twice reverts."
    severity := .low
    pattern := r"\.clone\(\s*[^)]*\s*\)" },
  { id := "contract-existence-unchecked"
    title := "Low-level call in assembly without extcodesize check"
    description :=
      "A low-level `call` succeeds when the target has no code. Without an `extcodesize` check " ++
      "the call may appear successful even though the contract does not exist."
    severity := .low
    pattern :=
      r"(?s)function\s+[^\{]*\{[^}]*\bassembly(\s*\([^)]*\))?\s*" ++
      r"\{[^}]*\bcall\((?![^}]*extcodesize)" },
  { id := "deadline-block-timestamp"
    title := "Using block.timestamp as a swap deadline"
    description :=
      "A deadline of `block.timestamp` is always satisfied, so the transaction can be held and " ++
      "executed at any later time. Protocols should let users who interact with AMMs choose " ++
      "their own expiration deadline."
    severity := .low
    pattern :=
      r"(deadline\s*(:|=|<=|>=|!=|<|>)\s*block.timestamp" ++
      r"|[\w]*Router\.\w+\(block.timestamp\)" ++
      r"|[\w]*router\.\w+\(block.timestamp\))" },
  { id := "delegatecall-in-loop"
    title := "Using `delegatecall` inside a loop"
    description :=
      "Every `delegatecall` runs with the caller's `msg.value`, so a loop of delegate calls " ++
      "credits the same value multiple times."
    severity := .low
    pattern :=
      r"(for|while|do)[^\(]?(\([^\)]*\))?.?\{(([^\}]*\n)*" ++
      r"(([^\}]*\{)([^\{\}]*\n)*" ++
      r"([^\{\}]*\}[^\}]*)\n))*[^\}]*delegatecall" },
  { id := "deprecated-functions"
    title := "Do not use deprecated library functions"
    description :=
      "`safeApprove` is deprecated in favour of `safeIncreaseAllowance` and " ++
      "`safeDecreaseAllowance`, and `_setupRole` in favour of `_grantRole`. The replacements " ++
      "avoid allowance race conditions and keep the contract compatible with newer library " ++
      "versions."
    severity := .low
    pattern := r"_setupRole\(|safeApprove\(" },
  { id := "zero-min-amount-out"
    title := "swapExactTokensForTokens called with zero minimum amount out"
    description :=
      "Passing 0 as `amountOutMin` disables slippage protection. The swap may return nothing, " ++
      "and MEV bots can sandwich it for the full amount."
    severity := .low
    pattern := r"swapExactTokensForTokens\s*\(\s*\w+\s*,\s*0\s*," },
  { id := "slot0-sqrt-price"
    title := "Use of `slot0` to get `sqrtPriceX96`"
    description :=
      "`slot0` reflects the current pool state and is easy to manipulate within a transaction. " ++
      "Use a TWAP to derive `sqrtPriceX96` instead."
    severity := .low
    pattern :=
      r"\(uint160\s+sqrtPriceX96[^)]*\)\s*=\s*IUniswapV3Pool\([^)]+\)\.slot0\(\)" },
  { id := "timelock-admin-disabled"
    title := "TimelockController admin is disabled with address(0)"
    description :=
      "A `TimelockController` deployed with `address(0)` as its admin (fourth argument) cannot " ++
      "have its roles administered outside the timelock itself. Check that this is the intended " ++
      "configuration."
    severity := .low
    pattern := r"TimelockController\(([^,]*,){3}\s*address\(0\)\s*\)" },
  { id := "transfer-send-eth"
    title := "Use of .transfer() or .send() for sending Ether"
    description :=
      "`.transfer()` and `.send()` forward a fixed 2300 gas stipend, which is not enough for a " ++
      "recipient contract to do more than emit an event, so transfers to contracts can fail " ++
      r#"unexpectedly. Prefer `.call{value: amount}("")` and check its return value."#
    severity := .low
    pattern := r"\bpayable\s*\([^)]*\)\s*\.\s*(transfer|send)\s*\([^)]*\)" },
  { id := "uint256-max-approval"
    title := "Approval of type(uint256).max"
    description :=
      "Some tokens treat a `type(uint256).max` allowance specially or reject it outright, " ++
      "especially tokens with custom `transferFrom`, fee or burn mechanics."
    severity := .low
    pattern := r"approve\s*\(\s*\w+\s*,\s*type\(uint256\)\.max\s*\)" },
  { id := "optional-erc20-decimals"
    title := "decimals() is not part of the ERC-20 standard"
    description :=
      "`decimals()` is an optional extension of ERC-20. Some valid tokens do not implement it, " ++
      "so casting an arbitrary token to `ERC20` and calling it can revert."
    severity := .low
    pattern := r"ERC20\([^)]*\)\.decimals\(\)" },
  { id := "abi-encode-packed"
    title := "abi.encodePacked() should be replaced with bytes.concat()"
    description :=
      "Solidity 0.8.4 introduced `bytes.concat()`, which states the intent of concatenating " ++
      "bytes or strings more clearly than `abi.encodePacked()`."
    severity := .informational
    pattern := r"abi\.encodePacked\(([^)]*)\)" },
  { id := "assert-usage"
    title := "assert() should be replaced with require() or revert()"
    description :=
      "Before 0.8.0 a failing `assert` consumed all remaining gas. It is still meant only for " ++
      "internal invariants: properly functioning code should never reach a Panic, even on " ++
      "invalid external input."
    severity := .informational
    pattern := r"(?<![\w.])assert\(([^)]*)\)" },
  { id := "empty-function-body"
    title := "Empty function body without comments"
    description :=
      "An empty function body gives readers no hint whether it is intentional. Add a comment " ++
      "explaining why it is empty."
    severity := .informational
    pattern :=
      r"\bfunction\s+[a-zA-Z_]\w*\s*\([^)]*\)\s+([a-zA-Z_]\w*\s+)*\{\s*\}" },
  { id := "private-function-underscore"
    title := "Names of private/internal functions should be prefixed with an underscore"
    description :=
      "The Solidity style guide recommends an underscore prefix for non-external functions: " ++
      "https://docs.soliditylang.org/en/v0.8.20/style-guide.html" ++
      "#underscore-prefix-for-non-external-functions-and-variables"
    severity := .informational
    pattern :=
      r"\bfunction\s+([a-zA-Z][^\s(]*)\s*\([^\)]*\)\s+" ++
      r"(internal|private)[^{]*\{" },
  { id := "private-variable-underscore"
    title := "Names of private/internal state variables should be prefixed with an underscore"
    description :=
      "The Solidity style guide recommends an underscore prefix for non-external variables: " ++
      "https://docs.soliditylang.org/en/v0.8.20/style-guide.html" ++
      "#underscore-prefix-for-non-external-functions-and-variables"
    severity := .informational
    pattern :=
      r"\b(?:bool|int\d*|uint\d*|bytes\d*|address|string|enum|struct|mapping\([^)]+\)" ++
      r"|[A-Z][a-zA-Z0-9]*)\s+(?:internal|private)\s+([a-z][^\s=;]*);" },
  { id := "require-without-reason"
    title := "require()/revert() statements should have descriptive reason strings"
    description := "A reason string tells callers and reviewers why a `require` or `revert` fired."
    severity := .informational
    pattern := r"(?<![\w.])(require|revert)\s*\(([^,)]+)\s*\)\s*;" },
  { id := "solidity-version-mcopy"
    title := "Solidity version 0.8.23 or above"
    description :=
      "Solidity 0.8.23 emits the `MCOPY` opcode, which is not supported on every chain and L2. " ++
      "Consider an earlier compiler version when deploying outside Ethereum mainnet."
    severity := .informational
    pattern :=
      r"pragma\s+solidity\s+(?:\^|>=|=)?\s*" ++
      r"(?:0\.8\.(?:2[3-9]|[3-9]\d)|0\.9\.\d+)\b" }]

namespace TextualRule

/-- The detector for a rule, with the given budget for each search. -/
def detector (r : TextualRule) (budget : Nat) : Except EngineError Detector := do
  let d ← Detector.ofPattern r.id r.title r.description r.severity r.pattern budget
  match r.guard with
  | some guard => d.unlessPrecededBy guard budget
  | none => return d

end TextualRule

end SolidityScan.Catalog
