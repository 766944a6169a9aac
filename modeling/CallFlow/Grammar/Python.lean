import CallFlow.Grammar.Basic

/-!
The grammar of Python source files.

It accepts the statements of Python 3 and the `print` and `exec` statements of Python 2. A node is
called after its rule unless the rule says otherwise. Where two readings of a construct are left
open here, the parser follows both until one of them fails.
-/
namespace CallFlow.Grammar.Python

open CallFlow.Lexer CallFlow.Grammar Rule

/-! Precedences of the operators, from loose to tight. -/

def precLambda : Int := -2
def precTypedParameter : Int := -1
def precConditional : Int := -1
def precParenthesized : Int := 1
def precOr : Int := 10
def precAnd : Int := 11
def precNot : Int := 12
def precCompare : Int := 13
def precBitwiseOr : Int := 14
def precBitwiseAnd : Int := 15
def precXor : Int := 16
def precShift : Int := 17
def precPlus : Int := 18
def precTimes : Int := 19
def precUnary : Int := 20
def precPower : Int := 21
def precCall : Int := 22

def commaSep1 (r : Rule Atom) : Rule Atom := sepBy1 (lit ",") r

/-! Tokens with more than one spelling. -/

def digit : LetterSet := .range '0' '9'
def lower : LetterSet := .range 'a' 'z'
def upper : LetterSet := .range 'A' 'Z'
def hexDigit : LetterSet := digit ∪ .range 'a' 'f' ∪ .range 'A' 'F'

def wordStart : LetterSet :=
  lower ∪ upper ∪ .ofString "_" ∪ .single Letter.wordStart

def wordPart : LetterSet :=
  wordStart ∪ digit ∪ .single Letter.wordPart

def digitGroups (s : LetterSet) : Pattern :=
  .many1 (.seq (.opt (.text "_")) (.many1 (.letters s)))

def digits : Pattern := .many1 (.seq (.many1 (.letters digit)) (.opt (.text "_")))

def exponent : Pattern := .seqs [.anyOf "eE", .opt (.anyOf "+-"), digits]

def integer : Pattern := .oneOf [
  .seqs [.oneOf [.text "0x", .text "0X"], digitGroups hexDigit, .opt (.anyOf "Ll")],
  .seqs [.oneOf [.text "0o", .text "0O"], digitGroups (.range '0' '7'), .opt (.anyOf "Ll")],
  .seqs [.oneOf [.text "0b", .text "0B"], digitGroups (.range '0' '1'), .opt (.anyOf "Ll")],
  .seq digits (.alt (.opt (.anyOf "Ll")) (.opt (.anyOf "jJ")))]

def float : Pattern := .seq
  (.oneOf [
    .seqs [digits, .text ".", .opt digits, .opt exponent],
    .seqs [.opt digits, .text ".", digits, .opt exponent],
    .seq digits exponent])
  (.opt (.anyOf "jJ"))

def identifier : Pattern := .seq (.letters wordStart) (.many (.letters wordPart))

def lineEnd : Pattern := .seq (.opt (.text "\r")) (.text "\n")

def escapeSequence : Token where
  literal := none
  prec := 1
  immediate := true
  pattern := .seq (.text "\\") (.oneOf [
    .seq (.text "u") (.times 4 (.letters hexDigit)),
    .seq (.text "U") (.times 8 (.letters hexDigit)),
    .seq (.text "x") (.times 2 (.letters hexDigit)),
    .seqs [.letters digit, .opt (.letters digit), .opt (.letters digit)],
    lineEnd,
    .anyOf "'\"abfrntv\\",
    .seqs [.text "N\x7b", .many1 (.letters (.compl (.ofString "\x7d"))), .text "\x7d"]])

def loneBackslash : Token :=
  { Token.ofString "\\" with immediate := true }

def groupStar : Token := { Token.ofString "*" with prec := 1 }

def formatText : Token where
  literal := none
  prec := 1
  pattern := .many1 (.letters (.compl (.ofString "\x7b\x7d\n")))

def comment : Pattern := .seq (.text "#") (.many (.letters (.compl (.ofString "\n"))))

def lineContinuation : Pattern :=
  .seq (.text "\\") (.alt lineEnd (.letters (.single 0)))

def blank : Pattern := .alt
  (.letters (.range '\t' '\r' ∪ .ofString " " ∪ .single Letter.zeroWidth))
  lineEnd

/-! The rules. -/

def binary (op : String) (level : Int) (mark : Int → Rule Atom → Rule Atom) : Rule Atom :=
  mark level (seqs [field "left" (ref "primary_expression"), field "operator" op,
    field "right" (ref "primary_expression")])

def simpleStatementRules : List (String × Rule Atom) := [
  ("module", many (ref "_statement")),
  ("_statement", oneOf [ref "_simple_statements", ref "_compound_statement"]),
  ("_simple_statements", seqs [
    sepBy1 ";" (ref "_simple_statement"), opt ";", ref "_newline"]),
  ("_simple_statement", oneOf [
    ref "future_import_statement", ref "import_statement", ref "import_from_statement",
    ref "print_statement", ref "assert_statement", ref "expression_statement",
    ref "return_statement", ref "delete_statement", ref "raise_statement", ref "pass_statement",
    ref "break_statement", ref "continue_statement", ref "global_statement",
    ref "nonlocal_statement", ref "exec_statement", ref "type_alias_statement"]),
  ("import_statement", seqs ["import", ref "_import_list"]),
  ("import_prefix", many1 "."),
  ("relative_import", seqs [ref "import_prefix", opt (ref "dotted_name")]),
  ("future_import_statement", seqs ["from", "__future__", "import",
    oneOf [ref "_import_list", seqs ["(", ref "_import_list", ")"]]]),
  ("import_from_statement", seqs ["from",
    field "module_name" (oneOf [ref "relative_import", ref "dotted_name"]), "import",
    oneOf [ref "wildcard_import", ref "_import_list", seqs ["(", ref "_import_list", ")"]]]),
  ("_import_list", seqs [
    commaSep1 (field "name" (oneOf [ref "dotted_name", ref "aliased_import"])), opt ","]),
  ("aliased_import", seqs [
    field "name" (ref "dotted_name"), "as", field "alias" (ref "identifier")]),
  ("wildcard_import", "*"),
  ("print_statement", oneOf [
    prec 1 (seqs ["print", ref "chevron",
      many (seqs [",", field "argument" (ref "expression")]), opt ","]),
    prec (-3) (dynamic (-1) (seqs ["print",
      commaSep1 (field "argument" (ref "expression")), opt ","]))]),
  ("chevron", seqs [">>", ref "expression"]),
  ("assert_statement", seqs ["assert", commaSep1 (ref "expression")]),
  ("expression_statement", oneOf [
    ref "expression", seqs [commaSep1 (ref "expression"), opt ","], ref "assignment",
    ref "augmented_assignment", ref "yield"]),
  ("named_expression", seqs [field "name" (ref "_named_expression_lhs"), ":=",
    field "value" (ref "expression")]),
  ("_named_expression_lhs", oneOf [ref "identifier", ref "keyword_identifier"]),
  ("return_statement", seqs ["return", opt (ref "_expressions")]),
  ("delete_statement", seqs ["del", ref "_expressions"]),
  ("_expressions", oneOf [ref "expression", ref "expression_list"]),
  ("raise_statement", seqs ["raise", opt (ref "_expressions"),
    opt (seqs ["from", field "cause" (ref "expression")])]),
  ("pass_statement", precLeft 0 "pass"),
  ("break_statement", precLeft 0 "break"),
  ("continue_statement", precLeft 0 "continue")]

def compoundStatementRules : List (String × Rule Atom) := [
  ("_compound_statement", oneOf [
    ref "if_statement", ref "for_statement", ref "while_statement", ref "try_statement",
    ref "with_statement", ref "function_definition", ref "class_definition",
    ref "decorated_definition", ref "match_statement"]),
  ("if_statement", seqs ["if", field "condition" (ref "expression"), ":",
    field "consequence" (ref "_suite"), many (field "alternative" (ref "elif_clause")),
    opt (field "alternative" (ref "else_clause"))]),
  ("elif_clause", seqs ["elif", field "condition" (ref "expression"), ":",
    field "consequence" (ref "_suite")]),
  ("else_clause", seqs ["else", ":", field "body" (ref "_suite")]),
  ("match_statement", seqs ["match", commaSep1 (field "subject" (ref "expression")), opt ",", ":",
    field "body" (renamed "block" (ref "_match_block"))]),
  ("_match_block", oneOf [
    seqs [ref "_indent", many (field "alternative" (ref "case_clause")), ref "_dedent"],
    ref "_newline"]),
  ("case_clause", seqs ["case", commaSep1 (ref "case_pattern"), opt ",",
    opt (field "guard" (ref "if_clause")), ":", field "consequence" (ref "_suite")]),
  ("for_statement", seqs [opt "async", "for", field "left" (ref "_left_hand_side"), "in",
    field "right" (ref "_expressions"), ":", field "body" (ref "_suite"),
    field "alternative" (opt (ref "else_clause"))]),
  ("while_statement", seqs ["while", field "condition" (ref "expression"), ":",
    field "body" (ref "_suite"), opt (field "alternative" (ref "else_clause"))]),
  ("try_statement", seqs ["try", ":", field "body" (ref "_suite"), many (ref "except_clause"),
    opt (ref "else_clause"), opt (ref "finally_clause")]),
  ("except_clause", seqs ["except", opt (.atom (.token groupStar)),
    opt (oneOf [
      seqs [field "value" (ref "expression"), opt (seqs ["as", field "alias" (ref "expression")])],
      commaSep1 (field "value" (ref "expression"))]),
    ":", ref "_suite"]),
  ("finally_clause", seqs ["finally", ":", ref "_suite"]),
  ("with_statement", seqs [opt "async", "with", ref "with_clause", ":",
    field "body" (ref "_suite")]),
  ("with_clause", oneOf [
    seqs [commaSep1 (ref "with_item"), opt ","],
    seqs ["(", commaSep1 (ref "with_item"), opt ",", ")"]]),
  ("with_item", dynamic 1 (field "value" (ref "expression"))),
  ("function_definition", seqs [opt "async", "def", field "name" (ref "identifier"),
    field "type_parameters" (opt (ref "type_parameter")), field "parameters" (ref "parameters"),
    opt (seqs ["->", field "return_type" (ref "type")]), ":", field "body" (ref "_suite")]),
  ("parameters", seqs ["(", opt (ref "_parameters"), ")"]),
  ("lambda_parameters", ref "_parameters"),
  ("list_splat", seqs ["*", ref "expression"]),
  ("dictionary_splat", seqs ["**", ref "expression"]),
  ("global_statement", seqs ["global", commaSep1 (ref "identifier")]),
  ("nonlocal_statement", seqs ["nonlocal", commaSep1 (ref "identifier")]),
  ("exec_statement", seqs ["exec", field "code" (oneOf [ref "string", ref "identifier"]),
    opt (seqs ["in", commaSep1 (ref "expression")])]),
  ("type_alias_statement", dynamic 1 (seqs ["type", field "left" (ref "type"), "=",
    field "right" (ref "type")])),
  ("class_definition", seqs ["class", field "name" (ref "identifier"),
    field "type_parameters" (opt (ref "type_parameter")),
    field "superclasses" (opt (ref "argument_list")), ":", field "body" (ref "_suite")]),
  ("type_parameter", seqs ["[", commaSep1 (ref "type"), opt ",", "]"]),
  ("parenthesized_list_splat", prec precParenthesized (seqs ["(",
    oneOf [renamed "parenthesized_expression" (ref "parenthesized_list_splat"),
      ref "list_splat"], ")"])),
  ("argument_list", seqs ["(",
    opt (commaSep1 (oneOf [ref "expression", ref "list_splat", ref "dictionary_splat",
      renamed "parenthesized_expression" (ref "parenthesized_list_splat"),
      ref "keyword_argument"])),
    opt ",", ")"]),
  ("decorated_definition", seqs [many1 (ref "decorator"),
    field "definition" (oneOf [ref "class_definition", ref "function_definition"])]),
  ("decorator", seqs ["@", ref "expression", ref "_newline"]),
  ("_suite", oneOf [
    renamed "block" (ref "_simple_statements"),
    seqs [ref "_indent", ref "block"],
    renamed "block" (ref "_newline")]),
  ("block", seqs [many (ref "_statement"), ref "_dedent"]),
  ("expression_list", precRight 0 (seqs [ref "expression",
    oneOf [",", seqs [many1 (seqs [",", ref "expression"]), opt ","]]])),
  ("dotted_name", prec 1 (sepBy1 "." (ref "identifier")))]

def caseRules : List (String × Rule Atom) := [
  ("case_pattern", prec 1 (oneOf [
    renamed "as_pattern" (ref "_as_pattern"), ref "keyword_pattern", ref "_simple_pattern"])),
  ("_simple_pattern", prec 1 (oneOf [
    ref "class_pattern", ref "splat_pattern", ref "union_pattern",
    renamed "list_pattern" (ref "_list_pattern"), renamed "tuple_pattern" (ref "_tuple_pattern"),
    ref "dict_pattern", ref "string", ref "concatenated_string", ref "true", ref "false",
    ref "none", seqs [opt "-", oneOf [ref "integer", ref "float"]], ref "complex_pattern",
    ref "dotted_name", "_"])),
  ("_as_pattern", seqs [ref "case_pattern", "as", ref "identifier"]),
  ("union_pattern", precRight 0 (seqs [ref "_simple_pattern",
    many1 (precLeft 0 (seqs ["|", ref "_simple_pattern"]))])),
  ("_list_pattern", seqs ["[",
    opt (seqs [commaSep1 (ref "case_pattern"), opt ","]), "]"]),
  ("_tuple_pattern", seqs ["(",
    opt (seqs [commaSep1 (ref "case_pattern"), opt ","]), ")"]),
  ("dict_pattern", seqs ["\x7b",
    opt (seqs [commaSep1 (oneOf [ref "_key_value_pattern", ref "splat_pattern"]), opt ","]),
    "\x7d"]),
  ("_key_value_pattern", seqs [field "key" (ref "_simple_pattern"), ":",
    field "value" (ref "case_pattern")]),
  ("keyword_pattern", seqs [ref "identifier", "=", ref "_simple_pattern"]),
  ("splat_pattern", prec 1 (seqs [oneOf ["*", "**"], oneOf [ref "identifier", "_"]])),
  ("class_pattern", seqs [ref "dotted_name", "(",
    opt (seqs [commaSep1 (ref "case_pattern"), opt ","]), ")"]),
  ("complex_pattern", prec 1 (seqs [opt "-", oneOf [ref "integer", ref "float"],
    oneOf ["+", "-"], oneOf [ref "integer", ref "float"]]))]

def patternRules : List (String × Rule Atom) := [
  ("_parameters", seqs [commaSep1 (ref "parameter"), opt ","]),
  ("_patterns", seqs [commaSep1 (ref "pattern"), opt ","]),
  ("parameter", oneOf [
    ref "identifier", ref "typed_parameter", ref "default_parameter",
    ref "typed_default_parameter", ref "list_splat_pattern", ref "tuple_pattern",
    ref "keyword_separator", ref "positional_separator", ref "dictionary_splat_pattern"]),
  ("pattern", oneOf [
    ref "identifier", ref "keyword_identifier", ref "subscript", ref "attribute",
    ref "list_splat_pattern", ref "tuple_pattern", ref "list_pattern"]),
  ("tuple_pattern", seqs ["(", opt (ref "_patterns"), ")"]),
  ("list_pattern", seqs ["[", opt (ref "_patterns"), "]"]),
  ("default_parameter", seqs [field "name" (oneOf [ref "identifier", ref "tuple_pattern"]), "=",
    field "value" (ref "expression")]),
  ("typed_default_parameter", prec precTypedParameter (seqs [field "name" (ref "identifier"), ":",
    field "type" (ref "type"), "=", field "value" (ref "expression")])),
  ("list_splat_pattern", seqs ["*",
    oneOf [ref "identifier", ref "keyword_identifier", ref "subscript", ref "attribute"]]),
  ("dictionary_splat_pattern", seqs ["**",
    oneOf [ref "identifier", ref "keyword_identifier", ref "subscript", ref "attribute"]]),
  ("as_pattern", precLeft 0 (seqs [ref "expression", "as",
    field "alias" (renamed "as_pattern_target" (ref "expression"))]))]

def expressionRules : List (String × Rule Atom) := [
  ("_expression_within_for_in_clause", oneOf [
    ref "expression", renamed "lambda" (ref "lambda_within_for_in_clause")]),
  ("expression", oneOf [
    ref "comparison_operator", ref "not_operator", ref "boolean_operator", ref "lambda",
    ref "primary_expression", ref "conditional_expression", ref "named_expression",
    ref "as_pattern"]),
  ("primary_expression", oneOf [
    ref "await", ref "binary_operator", ref "identifier", ref "keyword_identifier", ref "string",
    ref "concatenated_string", ref "integer", ref "float", ref "true", ref "false", ref "none",
    ref "unary_operator", ref "attribute", ref "subscript", ref "call", ref "list",
    ref "list_comprehension", ref "dictionary", ref "dictionary_comprehension", ref "set",
    ref "set_comprehension", ref "tuple", ref "parenthesized_expression",
    ref "generator_expression", ref "ellipsis",
    renamed "list_splat" (ref "list_splat_pattern")]),
  ("not_operator", prec precNot (seqs ["not", field "argument" (ref "expression")])),
  ("boolean_operator", oneOf [
    precLeft precAnd (seqs [field "left" (ref "expression"), field "operator" "and",
      field "right" (ref "expression")]),
    precLeft precOr (seqs [field "left" (ref "expression"), field "operator" "or",
      field "right" (ref "expression")])]),
  ("binary_operator", oneOf [
    binary "+" precPlus precLeft, binary "-" precPlus precLeft, binary "*" precTimes precLeft,
    binary "@" precTimes precLeft, binary "/" precTimes precLeft, binary "%" precTimes precLeft,
    binary "//" precTimes precLeft, binary "**" precPower precRight,
    binary "|" precBitwiseOr precLeft, binary "&" precBitwiseAnd precLeft,
    binary "^" precXor precLeft, binary "<<" precShift precLeft, binary ">>" precShift precLeft]),
  ("unary_operator", prec precUnary (seqs [field "operator" (oneOf ["+", "-", "~"]),
    field "argument" (ref "primary_expression")])),
  ("_not_in", seqs ["not", "in"]),
  ("_is_not", seqs ["is", "not"]),
  ("comparison_operator", precLeft precCompare (seqs [ref "primary_expression",
    many1 (seqs [
      field "operators" (oneOf ["<", "<=", "==", "!=", ">=", ">", "<>", "in",
        .mark { rename := some ⟨"not in", false⟩ } (ref "_not_in"), "is",
        .mark { rename := some ⟨"is not", false⟩ } (ref "_is_not")]),
      ref "primary_expression"])])),
  ("lambda", prec precLambda (seqs ["lambda",
    field "parameters" (opt (ref "lambda_parameters")), ":", field "body" (ref "expression")])),
  ("lambda_within_for_in_clause", seqs ["lambda",
    field "parameters" (opt (ref "lambda_parameters")), ":",
    field "body" (ref "_expression_within_for_in_clause")]),
  ("assignment", seqs [field "left" (ref "_left_hand_side"),
    oneOf [
      seqs ["=", field "right" (ref "_right_hand_side")],
      seqs [":", field "type" (ref "type")],
      seqs [":", field "type" (ref "type"), "=", field "right" (ref "_right_hand_side")]]]),
  ("augmented_assignment", seqs [field "left" (ref "_left_hand_side"),
    field "operator" (oneOf ["+=", "-=", "*=", "/=", "@=", "//=", "%=", "**=", ">>=", "<<=", "&=",
      "^=", "|="]),
    field "right" (ref "_right_hand_side")]),
  ("_left_hand_side", oneOf [ref "pattern", ref "pattern_list"]),
  ("pattern_list", seqs [ref "pattern",
    oneOf [",", seqs [many1 (seqs [",", ref "pattern"]), opt ","]]]),
  ("_right_hand_side", oneOf [
    ref "expression", ref "expression_list", ref "assignment", ref "augmented_assignment",
    ref "pattern_list", ref "yield"]),
  ("yield", precRight 0 (seqs ["yield",
    oneOf [seqs ["from", ref "expression"], opt (ref "_expressions")]])),
  ("attribute", prec precCall (seqs [field "object" (ref "primary_expression"), ".",
    field "attribute" (ref "identifier")])),
  ("subscript", prec precCall (seqs [field "value" (ref "primary_expression"), "[",
    commaSep1 (field "subscript" (oneOf [ref "expression", ref "slice"])), opt ",", "]"])),
  ("slice", seqs [opt (ref "expression"), ":", opt (ref "expression"),
    opt (seqs [":", opt (ref "expression")])]),
  ("ellipsis", "..."),
  ("call", prec precCall (seqs [field "function" (ref "primary_expression"),
    field "arguments" (oneOf [ref "generator_expression", ref "argument_list"])])),
  ("typed_parameter", prec precTypedParameter (seqs [
    oneOf [ref "identifier", ref "list_splat_pattern", ref "dictionary_splat_pattern"], ":",
    field "type" (ref "type")])),
  ("type", oneOf [
    prec 1 (ref "expression"), ref "splat_type", ref "generic_type", ref "union_type",
    ref "constrained_type", ref "member_type"]),
  ("splat_type", prec 1 (seqs [oneOf ["*", "**"], ref "identifier"])),
  ("generic_type", prec 1 (seqs [oneOf [ref "identifier", renamed "identifier" "type"],
    ref "type_parameter"])),
  ("union_type", precLeft 0 (seqs [ref "type", "|", ref "type"])),
  ("constrained_type", precRight 0 (seqs [ref "type", ":", ref "type"])),
  ("member_type", seqs [ref "type", ".", ref "identifier"]),
  ("keyword_argument", seqs [
    field "name" (oneOf [ref "identifier", ref "keyword_identifier"]), "=",
    field "value" (ref "expression")])]

def literalRules : List (String × Rule Atom) := [
  ("list", seqs ["[", opt (ref "_collection_elements"), "]"]),
  ("set", seqs ["\x7b", ref "_collection_elements", "\x7d"]),
  ("tuple", seqs ["(", opt (ref "_collection_elements"), ")"]),
  ("dictionary", seqs ["\x7b", opt (commaSep1 (oneOf [ref "pair", ref "dictionary_splat"])),
    opt ",", "\x7d"]),
  ("pair", seqs [field "key" (ref "expression"), ":", field "value" (ref "expression")]),
  ("list_comprehension", seqs ["[", field "body" (ref "expression"),
    ref "_comprehension_clauses", "]"]),
  ("dictionary_comprehension", seqs ["\x7b", field "body" (ref "pair"),
    ref "_comprehension_clauses", "\x7d"]),
  ("set_comprehension", seqs ["\x7b", field "body" (ref "expression"),
    ref "_comprehension_clauses", "\x7d"]),
  ("generator_expression", seqs ["(", field "body" (ref "expression"),
    ref "_comprehension_clauses", ")"]),
  ("_comprehension_clauses", seqs [ref "for_in_clause",
    many (oneOf [ref "for_in_clause", ref "if_clause"])]),
  ("parenthesized_expression", prec precParenthesized (seqs ["(",
    oneOf [ref "expression", ref "yield"], ")"])),
  ("_collection_elements", seqs [
    commaSep1 (oneOf [ref "expression", ref "yield", ref "list_splat",
      ref "parenthesized_list_splat"]),
    opt ","]),
  ("for_in_clause", precLeft 0 (seqs [opt "async", "for", field "left" (ref "_left_hand_side"),
    "in", field "right" (commaSep1 (ref "_expression_within_for_in_clause")), opt ","])),
  ("if_clause", seqs ["if", ref "expression"]),
  ("conditional_expression", precRight precConditional (seqs [ref "expression", "if",
    ref "expression", "else", ref "expression"])),
  ("concatenated_string", seqs [ref "string", many1 (ref "string")]),
  ("string", seqs [ref "string_start", many (oneOf [ref "interpolation", ref "string_content"]),
    ref "string_end"]),
  ("string_content", precRight 0 (many1 (oneOf [
    ref "escape_interpolation", ref "escape_sequence", ref "_not_escape_sequence",
    ref "_string_content"]))),
  ("interpolation", seqs ["\x7b", field "expression" (ref "_f_expression"), opt "=",
    opt (field "type_conversion" (ref "type_conversion")),
    opt (field "format_specifier" (ref "format_specifier")), "\x7d"]),
  ("_f_expression", oneOf [
    ref "expression", ref "expression_list", ref "pattern_list", ref "yield"]),
  ("escape_sequence", .atom (.token escapeSequence)),
  ("_not_escape_sequence", .atom (.token loneBackslash)),
  ("format_specifier", seqs [":", many (oneOf [
    .atom (.token formatText), renamed "format_expression" (ref "interpolation")])]),
  ("type_conversion", token (.seq (.text "!") (.letters lower))),
  ("integer", token integer),
  ("float", token float),
  ("identifier", token identifier),
  ("keyword_identifier", oneOf [
    prec (-3) (renamed "identifier" (oneOf ["print", "exec", "async", "await"])),
    renamed "identifier" (oneOf ["type", "match"])]),
  ("true", "True"),
  ("false", "False"),
  ("none", "None"),
  ("await", prec precUnary (seqs ["await", ref "primary_expression"])),
  ("comment", token comment),
  ("line_continuation", token lineContinuation),
  ("positional_separator", "/"),
  ("keyword_separator", "*")]

def grammar : Grammar where
  rules := simpleStatementRules ++ compoundStatementRules ++ caseRules ++ patternRules ++
    expressionRules ++ literalRules
  externals := [.ref "_newline", .ref "_indent", .ref "_dedent", .ref "string_start",
    .ref "_string_content", .ref "escape_interpolation", .ref "string_end", .ref "comment",
    .token (.ofString "]"), .token (.ofString ")"), .token (.ofString "\x7d"),
    .token (.ofString "except")]
  extras := ["comment", "line_continuation"]
  blanks := blank
  supertypes := ["_simple_statement", "_compound_statement", "expression", "primary_expression",
    "pattern", "parameter"]
  inlined := ["_simple_statement", "_compound_statement", "_suite", "_expressions",
    "_left_hand_side", "keyword_identifier"]
  word := "identifier"
  reserved := ["False", "await", "else", "import", "pass", "None", "break", "except", "in",
    "raise", "True", "class", "finally", "is", "return", "and", "continue", "for", "lambda", "try",
    "as", "def", "from", "nonlocal", "while", "assert", "del", "global", "not", "with", "async",
    "elif", "if", "or", "yield"]

end CallFlow.Grammar.Python
