import PyStyle.Catalog

/-!
# The rules that ship

Seven groups of rules, one per category, each numbered from the first code of its
category on. Codes are part of the contract with users: they are never reused, and a
new rule goes to the end of a run.

- `Rule.internalError`, `Rule.syntaxError` — what the linter reports about itself;
- the rules the checks report, by name;
- `Catalog.standardGroups`, `Catalog.standard` — all rules.
-/

namespace PyStyle

namespace Rule

/-! ### Rules that are referred to by name -/

/-- A check failed on an element of a unit. -/
def internalError : Rule :=
  .of .system 0 "internal_error" "Internal error in check: \x7b0\x7d"

/-- A file could not be read as a unit. -/
def syntaxError : Rule :=
  .of .system 1 "syntax_error" "Found syntax error: \x7b0\x7d"

/-- A function scores above its limit. -/
def cognitiveComplexity : Rule :=
  .of .complexity 231 "cognitive_complexity"
    "Found function with too high cognitive complexity: \x7b0\x7d"

/-- The functions of a module score above their limit on average. -/
def cognitiveModuleComplexity : Rule :=
  .of .complexity 232 "cognitive_module_complexity"
    "Found module with too high average cognitive complexity: \x7b0\x7d"

/-- The annotation of an argument or a return value spans several lines. -/
def multilineTypeHint : Rule :=
  .of .consistency 320 "multiline_function_annotation" "Found multi-line function type annotation"

/-- A decorator is more than a dotted name, perhaps called. -/
def newStyledDecorator : Rule :=
  .of .bestPractices 466 "new_styled_decorator" "Found new-styled decorator"

/-- An `else` block holds nothing but an `if`. -/
def implicitElif : Rule :=
  .of .refactoring 513 "implicit_elif" "Found implicit `elif` condition"

/-! ### The groups -/

/-- What the linter reports about itself. -/
def systemRules : List Rule :=
  [internalError,
   syntaxError]

/-- Rules on names. -/
def namingRules : List Rule :=
  [.of .naming 100 "wrong_module_name" "Found wrong module name",
   .of .naming 101 "wrong_module_magic_name" "Found wrong module magic name",
   .of .naming 102 "wrong_module_name_pattern" "Found wrong module name pattern",
   .of .naming 110 "wrong_variable_name" "Found wrong variable name: \x7b0\x7d",
   .of .naming 111 "too_short_name" "Found too short name: \x7b0\x7d",
   .of .naming 112 "private_name" "Found private name pattern: \x7b0\x7d",
   .of .naming 113 "same_alias_import" "Found same alias import: \x7b0\x7d",
   .of .naming 114 "underscored_number_name" "Found underscored number name pattern: \x7b0\x7d",
   .of .naming 115 "upper_case_attribute" "Found upper-case constant in a class: \x7b0\x7d",
   .of .naming 116 "consecutive_underscores_in_name"
     "Found consecutive underscores name: \x7b0\x7d",
   .of .naming 117 "reserved_argument_name" "Found name reserved for first argument: \x7b0\x7d",
   .of .naming 118 "too_long_name" "Found too long name: \x7b0\x7d"]

/-- Rules on complexity. -/
def complexityRules : List Rule :=
  [.of .complexity 200 "high_module_complexity"
     "Found module with high Jones complexity: \x7b0\x7d",
   .of .complexity 201 "too_many_imports" "Found module with too many imports: \x7b0\x7d",
   .of .complexity 202 "too_many_module_members" "Found too many module members: \x7b0\x7d",
   .of .complexity 210 "too_many_local_variables" "Found too many local variables: \x7b0\x7d",
   .of .complexity 211 "too_many_arguments" "Found too many arguments: \x7b0\x7d",
   .of .complexity 212 "too_many_returns" "Found too many return statements: \x7b0\x7d",
   .of .complexity 213 "too_many_expressions" "Found too many expressions: \x7b0\x7d",
   .of .complexity 214 "too_many_methods" "Found too many methods: \x7b0\x7d",
   .of .complexity 215 "too_many_base_classes" "Too many base classes: \x7b0\x7d",
   .of .complexity 216 "too_many_decorators" "Too many decorators: \x7b0\x7d",
   .of .complexity 220 "too_deep_nesting" "Found too deep nesting: \x7b0\x7d",
   .of .complexity 221 "line_complexity" "Found line with high Jones complexity: \x7b0\x7d",
   .of .complexity 222 "too_many_conditions" "Found a condition with too much logic: \x7b0\x7d",
   .of .complexity 223 "too_many_elifs" "Found too many `elif` branches: \x7b0\x7d",
   .of .complexity 230 "too_long_try_body" "Found too long `try` body length: \x7b0\x7d",
   cognitiveComplexity,
   cognitiveModuleComplexity]

/-- Rules on consistency. -/
def consistencyRules : List Rule :=
  [.of .consistency 300 "local_folder_import" "Found local folder import",
   .of .consistency 301 "dotted_raw_import" "Found dotted raw import: \x7b0\x7d",
   .of .consistency 302 "unicode_string_prefix" "Found unicode string prefix: \x7b0\x7d",
   .of .consistency 303 "underscored_number" "Found underscored number: \x7b0\x7d",
   .of .consistency 304 "partial_float" "Found partial float: \x7b0\x7d",
   .of .consistency 305 "formatted_string" "Found `f` string",
   .of .consistency 306 "explicit_object_base_class"
     "Found explicit `object` base class: \x7b0\x7d",
   .of .consistency 307 "multiple_ifs_in_comprehension"
     "Found list comprehension with multiple `if`s",
   .of .consistency 308 "constant_comparison" "Found constant comparison",
   .of .consistency 309 "reversed_comparison_order" "Found reversed comparison order",
   .of .consistency 310 "bad_number_suffix" "Found bad number suffix: \x7b0\x7d",
   multilineTypeHint]

/-- Rules on best practices. -/
def bestPracticesRules : List Rule :=
  [.of .bestPractices 400 "wrong_magic_comment" "Found wrong magic comment: \x7b0\x7d",
   .of .bestPractices 401 "wrong_doc_comment" "Found wrong doc comment",
   .of .bestPractices 402 "overused_noqa" "Found `noqa` comments overuse: \x7b0\x7d",
   .of .bestPractices 403 "overused_no_cover" "Found `no cover` comments overuse: \x7b0\x7d",
   .of .bestPractices 404 "complex_default_value" "Found complex default value",
   .of .bestPractices 405 "loop_variable_definition" "Found wrong `for` loop variable definition",
   .of .bestPractices 406 "context_manager_variable_definition"
     "Found wrong context manager variable definition",
   .of .bestPractices 407 "mutable_module_constant" "Found mutable module constant",
   .of .bestPractices 410 "wrong_module_metadata" "Found wrong metadata variable: \x7b0\x7d",
   .of .bestPractices 411 "empty_module" "Found empty module",
   .of .bestPractices 412 "init_module_has_logic" "Found `__init__.py` module with logic",
   .of .bestPractices 420 "wrong_keyword" "Found wrong keyword: \x7b0\x7d",
   .of .bestPractices 421 "wrong_function_call" "Found wrong function call: \x7b0\x7d",
   newStyledDecorator]

/-- Rules on code that has a simpler form. -/
def refactoringRules : List Rule :=
  [.of .refactoring 500 "useless_loop_else" "Found `else` in a loop without `break`",
   .of .refactoring 501 "useless_finally" "Found `finally` in `try` block without `except`",
   .of .refactoring 502 "simplifiable_if" "Found simplifiable `if` condition",
   .of .refactoring 503 "useless_returning_else" "Found useless returning `else` statement",
   .of .refactoring 504 "negated_condition" "Found negated condition",
   .of .refactoring 505 "nested_try" "Found nested `try` block",
   .of .refactoring 506 "useless_lambda" "Found useless lambda declaration",
   .of .refactoring 507 "useless_len_compare" "Found useless `len()` compare",
   .of .refactoring 508 "not_operator_with_compare" "Found incorrect `not` with compare usage",
   .of .refactoring 509 "nested_ternary" "Found nested ternary",
   .of .refactoring 510 "wrong_in_compare_type" "Found `in` used with a non-set container",
   .of .refactoring 511 "unmerged_isinstance_calls"
     "Found separate `isinstance` calls that can be merged for: \x7b0\x7d",
   .of .refactoring 512 "wrong_isinstance_with_tuple"
     "Found `isinstance` call with a single element tuple",
   implicitElif]

/-- Rules on classes and objects. -/
def oopRules : List Rule :=
  [.of .oop 600 "builtin_subclass" "Found subclassing a builtin: \x7b0\x7d",
   .of .oop 601 "shadowed_class_attribute" "Found shadowed class attribute: \x7b0\x7d",
   .of .oop 602 "static_method" "Found using `@staticmethod`",
   .of .oop 603 "bad_magic_method" "Found using restricted magic method: \x7b0\x7d",
   .of .oop 604 "wrong_class_body_content" "Found incorrect node inside `class` body",
   .of .oop 605 "method_without_arguments" "Found method without arguments: \x7b0\x7d",
   .of .oop 606 "wrong_base_class" "Found incorrect base class",
   .of .oop 607 "wrong_slots" "Found incorrect `__slots__` syntax",
   .of .oop 608 "wrong_super_call" "Found incorrect `super()` call: \x7b0\x7d",
   .of .oop 609 "direct_magic_attribute_access" "Found direct magic attribute usage: \x7b0\x7d",
   .of .oop 610 "async_magic_method" "Found disallowed `async` magic method usage: \x7b0\x7d",
   .of .oop 611 "yield_magic_method" "Found disallowed `yield` magic method usage: \x7b0\x7d"]

end Rule

namespace Catalog

/-- All rules that ship, by category. -/
def standardGroups : List (Category × List Rule) :=
  [(.system, Rule.systemRules), (.naming, Rule.namingRules),
   (.complexity, Rule.complexityRules), (.consistency, Rule.consistencyRules),
   (.bestPractices, Rule.bestPracticesRules), (.refactoring, Rule.refactoringRules),
   (.oop, Rule.oopRules)]

/-- The catalog of all rules that ship. -/
def standard : Except CatalogError Catalog :=
  build standardGroups

end Catalog

end PyStyle
