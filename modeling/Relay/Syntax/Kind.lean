/-!
# Kinds of syntax node

Every node has a kind.  Punctuation, operators and keywords are nodes as well:
their kind is `token` with the text itself.  All other kinds are *named*.
-/

namespace Relay.Syntax

/-- What a node of the tree stands for. -/
inductive Kind where
  | program | hashBangLine | comment | exportStatement | namespaceExport
  | exportClause | exportSpecifier | importStatement | importClause
  | namespaceImport | namedImports | importSpecifier | importAttribute
  | expressionStatement | variableDeclaration | lexicalDeclaration
  | variableDeclarator | statementBlock | elseClause | ifStatement
  | switchStatement | switchBody | switchCase | switchDefault | forStatement
  | forInStatement | whileStatement | doStatement | tryStatement | catchClause
  | finallyClause | withStatement | breakStatement | continueStatement
  | debuggerStatement | returnStatement | throwStatement | emptyStatement
  | labeledStatement | statementIdentifier | parenthesizedExpression
  | sequenceExpression | identifier | undefinedWord | propertyIdentifier
  | shorthandPropertyIdentifier | shorthandPropertyIdentifierPattern
  | privatePropertyIdentifier | thisWord | superWord | importWord | trueWord
  | falseWord | nullWord | number | string | stringFragment | escapeSequence
  | templateString | templateSubstitution | regex | regexPattern | regexFlags
  | object | objectPattern | pair | pairPattern | objectAssignmentPattern
  | assignmentPattern | restPattern | spreadElement | array | arrayPattern
  | methodDefinition | computedPropertyName | functionExpression
  | functionDeclaration | generatorFunction | generatorFunctionDeclaration
  | arrowFunction | classExpression | classDeclaration | classHeritage
  | classBody | fieldDefinition | classStaticBlock | decorator | callExpression
  | newExpression | awaitExpression | memberExpression | subscriptExpression
  | optionalChain | assignmentExpression | augmentedAssignmentExpression
  | ternaryExpression | binaryExpression | unaryExpression | updateExpression
  | yieldExpression | arguments | formalParameters | metaProperty | jsxElement
  | jsxOpeningElement | jsxClosingElement | jsxSelfClosingElement
  | jsxExpression | jsxText | jsxAttribute | jsxNamespaceName
  | htmlCharacterReference | typeIdentifier | typeNote | requiredParameter
  | optionalParameter | typeArguments | typeParameters | typeParameter
  | constraint | defaultType | predefinedType | genericType | unionType
  | intersectionType | arrayType | tupleType | objectType | propertySignature
  | methodSignature | callSignature | constructSignature | indexSignature
  | mappedTypeClause | literalType | unaryType | functionType | constructorType
  | conditionalType | inferType | indexTypeQuery | lookupType | typeQuery
  | templateLiteralType | templateType | parenthesizedType | readonlyType
  | optionalType | restType | thisType | typePredicate | typePredicateNote
  | asserts | assertsNote | nestedTypeIdentifier | nestedIdentifier
  | asExpression | satisfiesExpression | nonNullExpression | typeAssertion
  | interfaceDeclaration | interfaceBody | extendsTypeClause | extendsClause
  | implementsClause | typeAliasDeclaration | enumDeclaration | enumBody
  | enumAssignment | internalModule | externalModule | ambientDeclaration
  | abstractClassDeclaration | abstractMethodSignature | publicFieldDefinition
  | functionSignature | accessibilityModifier | overrideModifier
  | importRequireClause | importAlias
  /-- An operator, a keyword or a punctuation mark, by its text. -/
  | token (text : String)
deriving DecidableEq, Inhabited

namespace Kind

/-- The name of a kind as the tree shows it. -/
def name : Kind → String
  | .program => "program"
  | .hashBangLine => "hash_bang_line"
  | .comment => "comment"
  | .exportStatement => "export_statement"
  | .namespaceExport => "namespace_export"
  | .exportClause => "export_clause"
  | .exportSpecifier => "export_specifier"
  | .importStatement => "import_statement"
  | .importClause => "import_clause"
  | .namespaceImport => "namespace_import"
  | .namedImports => "named_imports"
  | .importSpecifier => "import_specifier"
  | .importAttribute => "import_attribute"
  | .expressionStatement => "expression_statement"
  | .variableDeclaration => "variable_declaration"
  | .lexicalDeclaration => "lexical_declaration"
  | .variableDeclarator => "variable_declarator"
  | .statementBlock => "statement_block"
  | .elseClause => "else_clause"
  | .ifStatement => "if_statement"
  | .switchStatement => "switch_statement"
  | .switchBody => "switch_body"
  | .switchCase => "switch_case"
  | .switchDefault => "switch_default"
  | .forStatement => "for_statement"
  | .forInStatement => "for_in_statement"
  | .whileStatement => "while_statement"
  | .doStatement => "do_statement"
  | .tryStatement => "try_statement"
  | .catchClause => "catch_clause"
  | .finallyClause => "finally_clause"
  | .withStatement => "with_statement"
  | .breakStatement => "break_statement"
  | .continueStatement => "continue_statement"
  | .debuggerStatement => "debugger_statement"
  | .returnStatement => "return_statement"
  | .throwStatement => "throw_statement"
  | .emptyStatement => "empty_statement"
  | .labeledStatement => "labeled_statement"
  | .statementIdentifier => "statement_identifier"
  | .parenthesizedExpression => "parenthesized_expression"
  | .sequenceExpression => "sequence_expression"
  | .identifier => "identifier"
  | .undefinedWord => "undefined"
  | .propertyIdentifier => "property_identifier"
  | .shorthandPropertyIdentifier => "shorthand_property_identifier"
  | .shorthandPropertyIdentifierPattern =>
      "shorthand_property_identifier_pattern"
  | .privatePropertyIdentifier => "private_property_identifier"
  | .thisWord => "this"
  | .superWord => "super"
  | .importWord => "import"
  | .trueWord => "true"
  | .falseWord => "false"
  | .nullWord => "null"
  | .number => "number"
  | .string => "string"
  | .stringFragment => "string_fragment"
  | .escapeSequence => "escape_sequence"
  | .templateString => "template_string"
  | .templateSubstitution => "template_substitution"
  | .regex => "regex"
  | .regexPattern => "regex_pattern"
  | .regexFlags => "regex_flags"
  | .object => "object"
  | .objectPattern => "object_pattern"
  | .pair => "pair"
  | .pairPattern => "pair_pattern"
  | .objectAssignmentPattern => "object_assignment_pattern"
  | .assignmentPattern => "assignment_pattern"
  | .restPattern => "rest_pattern"
  | .spreadElement => "spread_element"
  | .array => "array"
  | .arrayPattern => "array_pattern"
  | .methodDefinition => "method_definition"
  | .computedPropertyName => "computed_property_name"
  | .functionExpression => "function_expression"
  | .functionDeclaration => "function_declaration"
  | .generatorFunction => "generator_function"
  | .generatorFunctionDeclaration => "generator_function_declaration"
  | .arrowFunction => "arrow_function"
  | .classExpression => "class"
  | .classDeclaration => "class_declaration"
  | .classHeritage => "class_heritage"
  | .classBody => "class_body"
  | .fieldDefinition => "field_definition"
  | .classStaticBlock => "class_static_block"
  | .decorator => "decorator"
  | .callExpression => "call_expression"
  | .newExpression => "new_expression"
  | .awaitExpression => "await_expression"
  | .memberExpression => "member_expression"
  | .subscriptExpression => "subscript_expression"
  | .optionalChain => "optional_chain"
  | .assignmentExpression => "assignment_expression"
  | .augmentedAssignmentExpression => "augmented_assignment_expression"
  | .ternaryExpression => "ternary_expression"
  | .binaryExpression => "binary_expression"
  | .unaryExpression => "unary_expression"
  | .updateExpression => "update_expression"
  | .yieldExpression => "yield_expression"
  | .arguments => "arguments"
  | .formalParameters => "formal_parameters"
  | .metaProperty => "meta_property"
  | .jsxElement => "jsx_element"
  | .jsxOpeningElement => "jsx_opening_element"
  | .jsxClosingElement => "jsx_closing_element"
  | .jsxSelfClosingElement => "jsx_self_closing_element"
  | .jsxExpression => "jsx_expression"
  | .jsxText => "jsx_text"
  | .jsxAttribute => "jsx_attribute"
  | .jsxNamespaceName => "jsx_namespace_name"
  | .htmlCharacterReference => "html_character_reference"
  | .typeIdentifier => "type_identifier"
  | .typeNote => "type_annotation"
  | .requiredParameter => "required_parameter"
  | .optionalParameter => "optional_parameter"
  | .typeArguments => "type_arguments"
  | .typeParameters => "type_parameters"
  | .typeParameter => "type_parameter"
  | .constraint => "constraint"
  | .defaultType => "default_type"
  | .predefinedType => "predefined_type"
  | .genericType => "generic_type"
  | .unionType => "union_type"
  | .intersectionType => "intersection_type"
  | .arrayType => "array_type"
  | .tupleType => "tuple_type"
  | .objectType => "object_type"
  | .propertySignature => "property_signature"
  | .methodSignature => "method_signature"
  | .callSignature => "call_signature"
  | .constructSignature => "construct_signature"
  | .indexSignature => "index_signature"
  | .mappedTypeClause => "mapped_type_clause"
  | .literalType => "literal_type"
  | .unaryType => "unary_type"
  | .functionType => "function_type"
  | .constructorType => "constructor_type"
  | .conditionalType => "conditional_type"
  | .inferType => "infer_type"
  | .indexTypeQuery => "index_type_query"
  | .lookupType => "lookup_type"
  | .typeQuery => "type_query"
  | .templateLiteralType => "template_literal_type"
  | .templateType => "template_type"
  | .parenthesizedType => "parenthesized_type"
  | .readonlyType => "readonly_type"
  | .optionalType => "optional_type"
  | .restType => "rest_type"
  | .thisType => "this_type"
  | .typePredicate => "type_predicate"
  | .typePredicateNote => "type_predicate_annotation"
  | .asserts => "asserts"
  | .assertsNote => "asserts_annotation"
  | .nestedTypeIdentifier => "nested_type_identifier"
  | .nestedIdentifier => "nested_identifier"
  | .asExpression => "as_expression"
  | .satisfiesExpression => "satisfies_expression"
  | .nonNullExpression => "non_null_expression"
  | .typeAssertion => "type_assertion"
  | .interfaceDeclaration => "interface_declaration"
  | .interfaceBody => "interface_body"
  | .extendsTypeClause => "extends_type_clause"
  | .extendsClause => "extends_clause"
  | .implementsClause => "implements_clause"
  | .typeAliasDeclaration => "type_alias_declaration"
  | .enumDeclaration => "enum_declaration"
  | .enumBody => "enum_body"
  | .enumAssignment => "enum_assignment"
  | .internalModule => "internal_module"
  | .externalModule => "module"
  | .ambientDeclaration => "ambient_declaration"
  | .abstractClassDeclaration => "abstract_class_declaration"
  | .abstractMethodSignature => "abstract_method_signature"
  | .publicFieldDefinition => "public_field_definition"
  | .functionSignature => "function_signature"
  | .accessibilityModifier => "accessibility_modifier"
  | .overrideModifier => "override_modifier"
  | .importRequireClause => "import_require_clause"
  | .importAlias => "import_alias"
  | .token text => text

/-- Named kinds are all but the tokens. -/
def isNamed : Kind → Bool
  | .token _ => false
  | _ => true

/-- Property access, with a dot or with brackets. -/
def isAccess : Kind → Bool
  | .memberExpression | .subscriptExpression => true
  | _ => false

/-- Kinds whose variables are their own.  The keyword `function` is listed with
the forms that it opens. -/
def isFunction : Kind → Bool
  | .functionDeclaration | .generatorFunctionDeclaration | .functionExpression
  | .generatorFunction | .arrowFunction | .methodDefinition => true
  | .token text => text == "function"
  | _ => false

/-- A scope is a function or the whole program. -/
def isScope (k : Kind) : Bool :=
  k.isFunction || k == .program

end Kind

end Relay.Syntax
