/-
# Structural rules

The detectors that inspect syntax trees, one for each rule.
-/
import SolidityScan.Rules.Arrays
import SolidityScan.Rules.Calls
import SolidityScan.Rules.Declarations
import SolidityScan.Rules.ZeroAddress

namespace SolidityScan.Catalog

/-- The detectors for trees. -/
def structuralDetectors : List Detector := [
  .ofRule "ecrecover-zero-check"
    "Ensure the `ecrecover` result is checked for non-zero"
    ("`ecrecover` returns the zero address for invalid signatures (for example when `v` is " ++
      "neither 27 nor 28) instead of reverting. Unless the recovered address is checked against " ++
      "zero, an invalid signature can pass as a signature from an uninitialised or zero-valued " ++
      "signer.")
    .medium Rules.ecrecoverZeroCheck,
  .ofRule "payable-without-withdraw"
    "Contract contains payable functions but no withdraw/sweep/transfer function"
    ("Payable functions let the contract receive Ether. Without a function that transfers Ether " ++
      "back out, any balance it receives is locked forever.")
    .medium Rules.payableWithoutWithdraw,
  .ofRule "array-grows-without-shrink"
    "Array can grow in size without a way to shrink it"
    ("State arrays that only ever grow through `push` keep accumulating storage and make any " ++
      "loop over them more expensive over time. Provide a way to remove elements (`pop`, " ++
      "`delete`, or overwriting slots) for arrays that are pushed to.")
    .low Rules.arrayGrowsWithoutShrink,
  .ofRule "array-push-without-check"
    "Array push without existence check"
    ("Pushing to an array without first checking whether the element is already present can " ++
      "bloat the array with duplicates and waste gas. Check for existence before calling `push`.")
    .low Rules.arrayPushWithoutCheck,
  .ofRule "constructor-zero-address"
    "Missing zero address check in constructor"
    ("Constructors often take address parameters for owners or linked contracts. Without a " ++
      "check, a deployment mistake can set one of them to the zero address, which cannot act " ++
      "like a normal account and permanently burns anything sent to it. Revert in the " ++
      "constructor when an address parameter is zero.")
    .low Rules.constructorZeroAddress,
  .ofRule "eip712-domain-incomplete"
    "Missing `version` or `salt` in EIP712 domain"
    ("The EIP712 domain type hash should include both `version` and `salt`. Without them " ++
      "signatures cannot be invalidated across upgrades and may collide with other deployments.")
    .low Rules.eip712DomainIncomplete,
  .ofRule "unbounded-array-param-loop"
    "Unbounded array parameter iterated in an externally callable function"
    ("Public and external functions that loop over caller-supplied arrays can be handed arrays " ++
      "large enough to exhaust the block gas limit. Bound the array length before looping.")
    .low Rules.unboundedArrayParamLoop,
  .ofRule "external-call-in-loop"
    "External function calls within loops"
    ("Calling external functions inside loops can easily run out of gas, making transaction " ++
      "failures and denial of service far more likely. Limit the number of iterations that make " ++
      "external calls and the gas forwarded to each.")
    .low Rules.externalCallInLoop,
  .ofRule "from-to-equality-check"
    "Missing comparison between `from` and `to` addresses"
    ("Functions taking both `from` and `to` address parameters should make sure they differ. " ++
      "Self-transfers can bypass accounting that assumes distinct parties.")
    .low Rules.fromToEqualityCheck,
  .ofRule "multiple-role-modifiers"
    "Multiple onlyXYZ modifiers complicate privilege management"
    ("Several hand-written modifiers that each compare `msg.sender` against a different role " ++
      "make privileges hard to audit and change. Consider OpenZeppelin's AccessControl for " ++
      "role-based permissions.")
    .low Rules.multipleRoleModifiers,
  .ofRule "hardcoded-token-uri"
    "tokenURI returns a hardcoded URI"
    ("The `tokenURI` function returns a fixed URI without checking that the token exists or " ++
      "deriving the URI from the token id.")
    .low Rules.hardcodedTokenUri,
  .ofRule "non-reentrant-not-first"
    "The nonReentrant modifier should be first in a function declaration"
    ("Modifiers run in declaration order. When `nonReentrant` is not first, the modifiers " ++
      "before it execute without reentrancy protection and can be reentered.")
    .low Rules.nonReentrantNotFirst,
  .ofRule "min-max-without-limits"
    "No limits when setting min/max amounts"
    ("Functions that set minimum, maximum or threshold values should validate the new value " ++
      "with a `require`. Without bounds a mistaken call can leave the protocol in an invalid " ++
      "configuration.")
    .low Rules.minMaxWithoutLimits,
  .ofRule "unsafe-signed-cast"
    "Unsafe conversion from unsigned to signed values"
    ("Solidity's `int` types use two's complement, so a large unsigned value silently wraps " ++
      "when cast to a signed type of the same width (a `uint256` above `type(int256).max` " ++
      "becomes negative). Use SafeCast to make such conversions revert on overflow.")
    .low Rules.unsafeSignedCast,
  .ofRule "yul-return"
    "Avoid using return in Yul assembly blocks"
    ("`return` inside an assembly block ends execution of the whole call, not just the block, " ++
      "so any Solidity code after it (including modifier bodies after `_`) never runs.")
    .low Rules.yulReturn,
  .ofRule "immutable-constant-misuse"
    "Use `immutable` for calculated values and `constant` for literal values"
    ("The compiler handles both cases the same way, but `constant` is meant for literal values " ++
      "written in the code and `immutable` for expressions or values computed and assigned in " ++
      "the constructor. Using the right keyword states the intent.")
    .informational Rules.immutableConstantMisuse,
  .ofRule "try-catch-without-error"
    "Try-catch without human-readable error handling"
    ("A try/catch should include a `catch Error(string memory reason)` clause so revert reasons " ++
      "are captured, which makes failures easier to debug.")
    .informational Rules.tryCatchWithoutError]

end SolidityScan.Catalog
